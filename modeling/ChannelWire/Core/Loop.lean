import ChannelWire.Foundation.Transition
import ChannelWire.Core.Handlers

/-!
# The event loop of the core server

`core/src/server.c` from `drain_input` to `main`.  Whatever the kernel decides is an
argument: the answers of `accept`, `recv` and `send` come as lists, and a list that ends
before the loop does shows the state at the moment the next call has not returned yet.

Three relations describe runs, each contained in the next:

* a round of the loop in `main` (`pollRound`);
* `Call`: one call of `accept`, `read_from_client` or `write_to_client`, or a disconnect on a
  poll error, in any order;
* `Step`: one `accept`, one `recv`, one turn of the loop in `drain_input`, one `send`, or a
  disconnect, in any order.

Every state in which `main` calls `handle_frame`, `recv` or `send` is a state between two
steps, so what is proved for `Reachable` states holds at all of these moments.
-/

namespace ChannelWire
namespace Core

open LinkedQueue

/-! ## Reading -/

/-- A header that `cw_parse_header` rejects. -/
def rejectHeader (s : Server) (i : Slot) : Server :=
  let s := s.setStats { s.stats with malformedFrames := s.stats.malformedFrames + 1 }
  let s := s.emit (.malformed (s.clients i).conn)
  safeEnqueueText s i .error (ascii "malformed frame")

/-- A complete frame of `frameLen` bytes: it is handled and, unless that closed the
connection, taken from `inbuf`. -/
def serveFrame (s : Server) (i : Slot) (frame : Frame) (frameLen : ℕ) : Option Bool × Server :=
  let s := s.emit (.handled (s.clients i).conn frame)
  let s := handleFrame s i frame.type frame.payload
  let c := s.clients i
  if c.Live then (none, s.setClient i { c with inbuf := c.inbuf.drop frameLen })
  else (some false, s)

/-- One turn of the loop in `drain_input`: `some r` when the function returns, `r` telling
whether it returned `0`, and `none` when the loop goes on. -/
def drainTurn (s : Server) (i : Slot) : Option Bool × Server :=
  let inbuf := (s.clients i).inbuf
  if inbuf.length < cwFrameHeaderSize then (some true, s)
  else
    match cwParseHeader inbuf with
    | none => (some false, rejectHeader s i)
    | some header =>
      let frameLen := cwFrameHeaderSize + header.payloadLen
      if inbuf.length < frameLen then (some true, s)
      else
        let payload := (inbuf.drop cwFrameHeaderSize).take header.payloadLen
        serveFrame s i ⟨header.type, payload⟩ frameLen

/-- The three things a turn can do, by the look it takes at the input buffer. -/
theorem drainTurn_eq (s : Server) (i : Slot) :
    drainTurn s i =
      match frameHead cwMaxPayloadSize (s.clients i).inbuf with
      | .more => (some true, s)
      | .bad => (some false, rejectHeader s i)
      | .item frame n => serveFrame s i frame n := by
  unfold drainTurn
  simp only
  by_cases hshort : (s.clients i).inbuf.length < cwFrameHeaderSize
  · rw [if_pos hshort, frameHead_of_short hshort]
  · rw [if_neg hshort, frameHead_eq_cwParseHeader (not_lt.mp hshort)]
    cases cwParseHeader (s.clients i).inbuf with
    | none => rfl
    | some header =>
      simp only
      split_ifs <;> rfl

/-- At most `n` turns of the loop in `drain_input`. -/
def drainLoop : ℕ → Server → Slot → Bool × Server
  | 0, s, _ => (true, s)
  | n + 1, s, i =>
    match drainTurn s i with
    | (some r, s) => (r, s)
    | (none, s) => drainLoop n s i

/-- `drain_input`; the result is whether it returned `0`.  Every turn that goes on takes five
bytes at least from `inbuf`, so its length bounds the turns. -/
def drainInput (s : Server) (i : Slot) : Bool × Server :=
  drainLoop ((s.clients i).inbuf.length + 1) s i

/-- What `recv` answers. -/
inductive RecvResult where
  | data (bytes : Bytes)
  | eof
  | again
  | intr
  | failed
  deriving DecidableEq, Repr

/-- Bytes stored behind `inbuf`. -/
def recvChunk (s : Server) (i : Slot) (chunk : Bytes) : Server :=
  let c := s.clients i
  (s.setClient i { c with inbuf := c.inbuf ++ chunk }).emit (.received c.conn chunk)

/-- `read_from_client`.  `recv` stores no more bytes than `inbuf` has room for. -/
def readFromClient (s : Server) (i : Slot) : List RecvResult → Server
  | [] => s
  | r :: rs =>
    let free := cwInbufCap - (s.clients i).inbuf.length
    if free = 0 then disconnectClient s i .inputBufferFull
    else
      match r with
      | .data bytes =>
        match drainInput (recvChunk s i (bytes.take free)) i with
        | (true, s) => readFromClient s i rs
        | (false, s) => s
      | .eof => disconnectClient s i .peerClosed
      | .again => s
      | .intr => readFromClient s i rs
      | .failed => disconnectClient s i .recvFailed

/-! ## Writing -/

/-- What `send` answers. -/
inductive SendResult where
  | took (n : ℕ)
  | again
  | intr
  | failed
  deriving DecidableEq, Repr

/-- `send` took `n` bytes of the first frame; a frame sent whole is unlinked and freed. -/
def takeSent (s : Server) (i : Slot) (n : ℕ) : Server :=
  let c := s.clients i
  match c.out.toList with
  | [] => s
  | frame :: _ =>
    let s := s.emit (.sent c.conn ((frame.data.drop frame.sent).take n))
    let out := c.out.modifyFront fun f => { f with sent := f.sent + n }
    if frame.sent + n = frame.len then
      s.setClient i { c with out := out.pop, queuedBytes := c.queuedBytes - frame.len }
    else s.setClient i { c with out := out }

/-- `write_to_client`.  `send` takes no more bytes than it is given; an answer of `0` counts
as a failure. -/
def writeToClient (s : Server) (i : Slot) : List SendResult → Server
  | [] => s
  | r :: rs =>
    match (s.clients i).out.toList with
    | [] => s
    | frame :: _ =>
      match r with
      | .took n =>
        if min n (frame.len - frame.sent) = 0 then disconnectClient s i .sendFailed
        else writeToClient (takeSent s i (min n (frame.len - frame.sent))) i rs
      | .again => s
      | .intr => writeToClient s i rs
      | .failed => disconnectClient s i .sendFailed

/-! ## Accepting -/

/-- What `accept` answers; a new descriptor comes with the answer of `set_nonblocking`. -/
inductive AcceptResult where
  | conn (fd : ℕ) (nonblocking : Bool)
  | again
  | intr
  | failed
  deriving DecidableEq, Repr

/-- The first free slot. -/
def freeSlot (s : Server) : Option Slot := slots.find? fun i => ¬ (s.clients i).Live

/-- A slot is blanked and gets the descriptor; the connections are counted. -/
def occupySlot (s : Server) (slot : Slot) (fd : ℕ) : Server :=
  let total := s.stats.totalConnections + 1
  let s := s.setClient slot { Client.blank with fd := fd, conn := total }
  let s := s.setStats { s.stats with
    currentConnections := s.stats.currentConnections + 1
    totalConnections := total }
  s.emit (.accepted total)

/-- One accepted descriptor: it gets the first free slot, or is closed. -/
def acceptConnection (s : Server) (fd : ℕ) (nonblocking : Bool) : Server :=
  match (freeSlot s).filter fun _ => nonblocking with
  | none => s
  | some slot => occupySlot s slot fd

/-- `accept_clients`. -/
def acceptClients (s : Server) : List AcceptResult → Server
  | [] => s
  | .conn fd nonblocking :: rs => acceptClients (acceptConnection s fd nonblocking) rs
  | .again :: _ => s
  | .intr :: rs => acceptClients s rs
  | .failed :: _ => s

/-! ## The poll loop -/

/-- The events `poll` reports for a descriptor, and what the calls they lead to will answer. -/
structure PollEvents where
  /-- `POLLERR`, `POLLHUP` or `POLLNVAL`. -/
  error : Bool
  /-- `POLLIN`. -/
  readable : Bool
  /-- `POLLOUT`. -/
  writable : Bool
  recvs : List RecvResult
  sends : List SendResult

/-- `find_client_by_fd`. -/
def findClientByFd (s : Server) (fd : ℤ) : Option Slot := slots.find? fun i => (s.clients i).fd = fd

/-- The body of the loop over `pfds`. -/
def serveEntry (s : Server) (entry : ℤ × PollEvents) : Server :=
  match findClientByFd s entry.1 with
  | none => s
  | some i =>
    if entry.2.error then disconnectClient s i .pollError
    else
      let s := if entry.2.readable then readFromClient s i entry.2.recvs else s
      if (s.clients i).Live ∧ entry.2.writable = true then writeToClient s i entry.2.sends else s

/-- The descriptors `main` puts into `pfds` behind the listener. -/
def pollSet (s : Server) : List ℤ :=
  (slots.filter fun i => (s.clients i).Live).map fun i => (s.clients i).fd

/-- One round of the loop in `main`, after `poll` reported events. -/
def pollRound (s : Server) (accepts : List AcceptResult) (events : List PollEvents) : Server :=
  let pfds := (pollSet s).zip events
  pfds.foldl serveEntry (acceptClients s accepts)

/-! ## Runs -/

/-- `fd` is no open descriptor: what the kernel promises of the descriptor `accept` returns. -/
def FreshFd (s : Server) (fd : ℕ) : Prop := ∀ i, (s.clients i).fd ≠ fd

/-- One `accept`, one `recv`, one turn of `drain_input`, one `send`, or one disconnect. -/
inductive Step : Server → Server → Prop where
  | accept {s : Server} {fd : ℕ} {nonblocking : Bool} :
      FreshFd s fd → Step s (acceptConnection s fd nonblocking)
  | recv {s : Server} {i : Slot} {chunk : Bytes} : (s.clients i).Live → chunk ≠ [] →
      (s.clients i).inbuf.length + chunk.length ≤ cwInbufCap → Step s (recvChunk s i chunk)
  | drain {s : Server} {i : Slot} : (s.clients i).Live → Step s (drainTurn s i).2
  | send {s : Server} {i : Slot} {n : ℕ} {frame : OutFrame} {rest : List OutFrame} :
      (s.clients i).Live → (s.clients i).out.toList = frame :: rest → 0 < n →
      n ≤ frame.len - frame.sent → Step s (takeSent s i n)
  | disconnect {s : Server} {i : Slot} {reason : Reason} : (s.clients i).Live →
      Step s (disconnectClient s i reason)

/-- The server, from its start, under every positive queue limit and every heap. -/
def system : Transition.System Server where
  init s := ∃ maxQueueBytes heap, 0 < maxQueueBytes ∧ s = Server.initial maxQueueBytes heap
  step := Step

/-- The states of the runs of the server. -/
abbrev Reachable (s : Server) : Prop := Transition.Reachable system s

/-- Whole calls: one `accept`, `read_from_client`, `write_to_client`, or a disconnect on a poll
error.  Every chunk `recv` stores is nonempty. -/
inductive Call : Server → Server → Prop where
  | accept {s : Server} {fd : ℕ} {nonblocking : Bool} :
      FreshFd s fd → Call s (acceptConnection s fd nonblocking)
  | read {s : Server} {i : Slot} {rs : List RecvResult} : (s.clients i).Live →
      .data [] ∉ rs → Call s (readFromClient s i rs)
  | write {s : Server} {i : Slot} {rs : List SendResult} : (s.clients i).Live →
      Call s (writeToClient s i rs)
  | pollError {s : Server} {i : Slot} : (s.clients i).Live →
      Call s (disconnectClient s i .pollError)

/-- The server with whole calls for steps. -/
def callSystem : Transition.System Server where
  init := system.init
  step := Call

/-- The states between two whole calls. -/
abbrev CallReachable (s : Server) : Prop := Transition.Reachable callSystem s

end Core
end ChannelWire
