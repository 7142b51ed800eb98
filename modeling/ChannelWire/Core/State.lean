import ChannelWire.Foundation.LinkedQueue
import ChannelWire.Protocol.Wire
import Mathlib.Algebra.GroupWithZero.Nat

/-!
# The state of the core server

The static variables of `core/src/server.c`, as one record that the handlers pass along.

* A char array is the C string it holds, `inbuf` its first `inbuf_len` bytes, and the frames
  behind `out_head` and `out_tail` are a `LinkedQueue.Queue`.
* `heap` is the sequence of answers `calloc` is going to give: the operating system's choice,
  fixed with the state so that the handlers stay functions.
* `size_t` counters are natural numbers: none of them can reach `2 ^ 64`.

Two fields have no counterpart in the source and are read by no function of it.  `trace`
records what the server did at its sockets and queues, and `Client.conn` numbers the accepted
connections, so that a connection can be named after its slot and its descriptor were reused.
-/

namespace ChannelWire
namespace Core

open LinkedQueue

/-- `CW_MAX_CLIENTS`. -/
def cwMaxClients : ℕ := 128

/-- `CW_MAX_CHANNELS`. -/
def cwMaxChannels : ℕ := 64

/-- `CW_NAME_CAP`. -/
def cwNameCap : ℕ := 32

/-- `CW_CHANNEL_CAP`. -/
def cwChannelCap : ℕ := 32

/-- `CW_TEXT_CAP`. -/
def cwTextCap : ℕ := 1024

/-- `CW_INBUF_CAP`. -/
def cwInbufCap : ℕ := cwFrameHeaderSize + cwMaxPayloadSize

/-- An index into `clients`. -/
abbrev Slot := Fin cwMaxClients

instance : NeZero cwMaxClients := ⟨by decide⟩

/-- The slots in the order of the source's loops over `clients`. -/
def slots : List Slot := List.finRange cwMaxClients

theorem mem_slots (i : Slot) : i ∈ slots := List.mem_finRange i

theorem nodup_slots : slots.Nodup := List.nodup_finRange _

/-- `out_frame` without its link: the bytes to send, how many they are, and how many of them
`send` has taken. -/
structure OutFrame where
  data : Bytes
  len : ℕ
  sent : ℕ
  deriving DecidableEq, Repr

/-- `client`. -/
structure Client where
  fd : ℤ
  registered : Bool
  username : Bytes
  activeChannel : Bytes
  joined : ℕ → Bool
  inbuf : Bytes
  out : Queue OutFrame
  queuedBytes : ℕ
  /-- The number of the connection in the slot, counted by `accept_clients`. -/
  conn : ℕ

/-- A slot after `memset`, with `fd = -1`. -/
def Client.blank : Client :=
  { fd := -1
    registered := false
    username := []
    activeChannel := []
    joined := fun _ => false
    inbuf := []
    out := Queue.empty
    queuedBytes := 0
    conn := 0 }

/-- The slot holds a connection. -/
def Client.Live (c : Client) : Prop := 0 ≤ c.fd

instance (c : Client) : Decidable c.Live := inferInstanceAs (Decidable (0 ≤ c.fd))

theorem Client.not_live_blank : ¬ Client.blank.Live := by decide

/-- `c->fd >= 0 && c->registered && c->joined[idx]`: the test of every loop over the members
of a channel. -/
def Client.isMember (c : Client) (idx : ℕ) : Bool :=
  decide c.Live && c.registered && c.joined idx

theorem Client.isMember_iff {c : Client} {idx : ℕ} :
    c.isMember idx = true ↔ c.Live ∧ c.registered = true ∧ c.joined idx = true := by
  simp only [Client.isMember, Bool.and_eq_true, decide_eq_true_eq, and_assoc]

/-- `server_stats`. -/
structure ServerStats where
  currentConnections : ℕ
  totalConnections : ℕ
  channelMessages : ℕ
  directMessages : ℕ
  malformedFrames : ℕ
  queueDisconnects : ℕ
  deriving DecidableEq, Repr

/-- The reasons `disconnect_client` is called with. -/
inductive Reason where
  | queueOverflow | clientQuit | inputBufferFull | peerClosed | recvFailed | sendFailed | pollError
  deriving DecidableEq, Repr

/-- An accepted `SAY`: the channel it was said in, the name of the sender at that time and the
text. -/
structure ChatEntry where
  channel : Bytes
  sender : Bytes
  text : Bytes
  deriving DecidableEq, Repr

/-- What the server does at its sockets and queues; connections are named by their number. -/
inductive Effect where
  /-- `accept_clients` gave the connection a slot. -/
  | accepted (conn : ℕ)
  /-- `recv` stored these bytes behind `inbuf`. -/
  | received (conn : ℕ) (bytes : Bytes)
  /-- `drain_input` called `handle_frame` with this frame. -/
  | handled (conn : ℕ) (frame : Frame)
  /-- `drain_input` met a header that `cw_parse_header` rejects. -/
  | malformed (conn : ℕ)
  /-- `enqueue_payload` linked this frame into the queue. -/
  | enqueued (conn : ℕ) (frame : Frame)
  /-- `enqueue_payload` had no room for this frame. -/
  | refused (conn : ℕ) (frame : Frame)
  /-- `broadcast_chat` accepted a text; `members` are the connections it is meant for. -/
  | said (conn : ℕ) (entry : ChatEntry) (members : List ℕ)
  /-- `send` took these bytes. -/
  | sent (conn : ℕ) (bytes : Bytes)
  /-- `disconnect_client` closed the connection. -/
  | closed (conn : ℕ) (reason : Reason)
  deriving DecidableEq, Repr

/-- The static variables of the server. -/
structure Server where
  clients : Slot → Client
  channels : List Bytes
  maxQueueBytes : ℕ
  stats : ServerStats
  /-- What `calloc` answers from now on. -/
  heap : ℕ → Bool
  trace : List Effect

namespace Server

/-- The state when `main` enters its loop, for a queue limit and a heap. -/
def initial (maxQueueBytes : ℕ) (heap : ℕ → Bool) : Server :=
  { clients := fun _ => Client.blank
    channels := []
    maxQueueBytes := maxQueueBytes
    stats := ⟨0, 0, 0, 0, 0, 0⟩
    heap := heap
    trace := [] }

/-- Overwrite one slot. -/
def setClient (s : Server) (i : Slot) (c : Client) : Server :=
  { s with clients := Function.update s.clients i c }

/-- Record an effect. -/
def emit (s : Server) (e : Effect) : Server := { s with trace := s.trace ++ [e] }

/-- Overwrite the counters. -/
def setStats (s : Server) (st : ServerStats) : Server := { s with stats := st }

/-- Overwrite the channel table. -/
def setChannels (s : Server) (chs : List Bytes) : Server := { s with channels := chs }

/-- Overwrite the answers of `calloc`. -/
def setHeap (s : Server) (heap : ℕ → Bool) : Server := { s with heap := heap }

section Fields

variable (s : Server) (i j : Slot) (c : Client) (e : Effect) (st : ServerStats) (h : ℕ → Bool)
  (chs : List Bytes)

@[simp] theorem setClient_self : (s.setClient i c).clients i = c := Function.update_self ..

theorem setClient_of_ne {s : Server} {i j : Slot} {c : Client} (hj : j ≠ i) :
    (s.setClient i c).clients j = s.clients j := Function.update_of_ne hj ..

@[simp] theorem setClient_channels : (s.setClient i c).channels = s.channels := rfl
@[simp] theorem setClient_maxQueueBytes : (s.setClient i c).maxQueueBytes = s.maxQueueBytes := rfl
@[simp] theorem setClient_stats : (s.setClient i c).stats = s.stats := rfl
@[simp] theorem setClient_heap : (s.setClient i c).heap = s.heap := rfl
@[simp] theorem setClient_trace : (s.setClient i c).trace = s.trace := rfl

@[simp] theorem emit_clients : (s.emit e).clients = s.clients := rfl
@[simp] theorem emit_channels : (s.emit e).channels = s.channels := rfl
@[simp] theorem emit_maxQueueBytes : (s.emit e).maxQueueBytes = s.maxQueueBytes := rfl
@[simp] theorem emit_stats : (s.emit e).stats = s.stats := rfl
@[simp] theorem emit_heap : (s.emit e).heap = s.heap := rfl
@[simp] theorem emit_trace : (s.emit e).trace = s.trace ++ [e] := rfl

@[simp] theorem setStats_clients : (s.setStats st).clients = s.clients := rfl
@[simp] theorem setStats_channels : (s.setStats st).channels = s.channels := rfl
@[simp] theorem setStats_maxQueueBytes : (s.setStats st).maxQueueBytes = s.maxQueueBytes := rfl
@[simp] theorem setStats_stats : (s.setStats st).stats = st := rfl
@[simp] theorem setStats_heap : (s.setStats st).heap = s.heap := rfl
@[simp] theorem setStats_trace : (s.setStats st).trace = s.trace := rfl

@[simp] theorem setChannels_clients : (s.setChannels chs).clients = s.clients := rfl
@[simp] theorem setChannels_channels : (s.setChannels chs).channels = chs := rfl
@[simp] theorem setChannels_maxQueueBytes :
    (s.setChannels chs).maxQueueBytes = s.maxQueueBytes := rfl
@[simp] theorem setChannels_stats : (s.setChannels chs).stats = s.stats := rfl
@[simp] theorem setChannels_heap : (s.setChannels chs).heap = s.heap := rfl
@[simp] theorem setChannels_trace : (s.setChannels chs).trace = s.trace := rfl

@[simp] theorem setHeap_clients : (s.setHeap h).clients = s.clients := rfl
@[simp] theorem setHeap_channels : (s.setHeap h).channels = s.channels := rfl
@[simp] theorem setHeap_maxQueueBytes : (s.setHeap h).maxQueueBytes = s.maxQueueBytes := rfl
@[simp] theorem setHeap_stats : (s.setHeap h).stats = s.stats := rfl
@[simp] theorem setHeap_heap : (s.setHeap h).heap = h := rfl
@[simp] theorem setHeap_trace : (s.setHeap h).trace = s.trace := rfl

end Fields

end Server

end Core
end ChannelWire
