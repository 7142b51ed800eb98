import ChannelWire.Core.Connections
import ChannelWire.Core.Runs

/-!
# Stream reassembly

The bytes received from a connection are the frames handled for it, followed by `inbuf`
(`InputOk`): one `recv` and one turn of `drain_input` keep that, and the handlers see neither
side of it.  Between two calls of the event loop `inbuf` holds no complete frame
(`InputInv.settled`).  Together the handled frames are those that `cwFraming` finds in the
bytes received, however `recv` cut them (`stream_reassembly`).

`inbuf` is exactly one maximal frame long.  A buffer that is full holds a complete frame or a
header that announces too much, so between calls it can only be full after such a header.
-/

namespace ChannelWire
namespace Core

open LinkedQueue

/-! ## The look at the input buffer -/

/-- A frame that is still incomplete leaves room in the input buffer. -/
theorem length_lt_of_head_more {l : Bytes} (h : frameHead cwMaxPayloadSize l = .more) :
    l.length < cwInbufCap := by
  by_cases hl : l.length < cwFrameHeaderSize
  · exact lt_of_lt_of_le hl (Nat.le_add_right ..)
  · obtain ⟨t, x, y, z, w, r, rfl⟩ := exists_header (not_lt.mp hl)
    simp only [frameHead] at h
    split_ifs at h with h1 h2
    rw [length_header]
    unfold cwInbufCap
    omega

theorem parse_of_settled {l : Bytes} (h : ∀ f n, frameHead cwMaxPayloadSize l ≠ .item f n) :
    cwFraming.parse l = ([], l) :=
  StreamDecoder.Decoder.parse_of_not_item h

/-- The stream has a header that announces more than 4096 bytes behind its complete frames. -/
def Oversized (stream : Bytes) : Prop :=
  frameHead cwMaxPayloadSize (cwFraming.parse stream).2 = .bad

/-! ## The invariant of a step -/

/-- The effect is about the bytes of a connection, or the frames found in them. -/
def Effect.IsStream : Effect → Prop
  | .received _ _ => True
  | .handled _ _ => True
  | _ => False

/-- The effect concerns the input side of a connection. -/
def Effect.IsInput : Effect → Prop
  | .closed _ reason => reason = .inputBufferFull
  | e => e.IsStream

theorem Effect.IsStream.isInput {e : Effect} (h : e.IsStream) : e.IsInput := by
  cases e <;> first | exact h | cases h

theorem Effect.receivedBy_of_not_isStream {k : ℕ} {e : Effect} (h : ¬ e.IsStream) :
    e.receivedBy k = [] := by
  cases e <;> first | rfl | exact absurd trivial h

theorem Effect.handledBy_of_not_isStream {k : ℕ} {e : Effect} (h : ¬ e.IsStream) :
    e.handledBy k = [] := by
  cases e <;> first | rfl | exact absurd trivial h

theorem Effect.receivedBy_of_not_isInput {k : ℕ} {e : Effect} (h : ¬ e.IsInput) :
    e.receivedBy k = [] := receivedBy_of_not_isStream fun hs => h hs.isInput

theorem Effect.handledBy_of_not_isInput {k : ℕ} {e : Effect} (h : ¬ e.IsInput) :
    e.handledBy k = [] := handledBy_of_not_isStream fun hs => h hs.isInput

theorem Effect.isInput_full (k : ℕ) : (Effect.closed k .inputBufferFull).IsInput := rfl

/-- To an observer of the input side nothing happened. -/
abbrev InputUnseen : Server → Server → Prop := Unseen Client.inbuf Effect.IsInput

theorem Action.inputUnseen {r : Request} {s t : Server} (h : Action r s t) :
    InputUnseen s t := by
  cases h with
  | push _ hl _ _ =>
    refine .push hl ?_ id
    rintro _ _ ⟨_, _, rfl⟩
    rfl
  | drop _ hl => exact .drop hl id (fun h => by cases h)
  | rename _ hl _ _ => exact .update rfl rfl hl rfl rfl
  | openChannel _ _ _ => exact .of_eq rfl rfl
  | join hl _ _ _ => exact .update rfl rfl hl rfl rfl
  | switch hl _ _ _ => exact .update rfl rfl hl rfl rfl
  | leave hl _ => exact .update rfl rfl hl rfl rfl
  | count _ _ => exact .of_eq rfl rfl
  | quit hl hr =>
    refine .disconnect hl fun h => ?_
    rcases hr with ⟨-, rfl⟩ | rfl <;> cases h
  | announce _ _ _ _ _ _ => exact .emit rfl rfl id

theorem Actions.inputUnseen {r : Request} {s t : Server} (h : Actions r s t) :
    InputUnseen s t := .of_actions (fun _ _ => Action.inputUnseen) h

/-- **Received is handled and buffered**, for every live connection; for every connection,
what was handled is a prefix of the frames of what was received. -/
structure InputOk (s : Server) : Prop where
  live : ∀ i, (s.clients i).Live → receivedBy (s.clients i).conn s.trace =
    cwFraming.encodeAll (handledBy (s.clients i).conn s.trace) ++ (s.clients i).inbuf
  handled : ∀ k, handledBy k s.trace <+: (cwFraming.parse (receivedBy k s.trace)).1

namespace InputOk

variable {s t : Server} {i : Slot}

theorem valid (hs : InputOk s) (k : ℕ) : ∀ f ∈ handledBy k s.trace, cwFraming.Valid f := fun f hf =>
  StreamDecoder.Codec.valid_of_mem_parse _ f ((hs.handled k).subset hf)

/-- The frames of the bytes received from a live connection: those handled, then those of the
input buffer. -/
theorem parse (hs : InputOk s) (hl : (s.clients i).Live) :
    cwFraming.parse (receivedBy (s.clients i).conn s.trace) =
      (handledBy (s.clients i).conn s.trace ++ (cwFraming.parse (s.clients i).inbuf).1,
        (cwFraming.parse (s.clients i).inbuf).2) := by
  rw [hs.live i hl, StreamDecoder.Codec.parse_encodeAll_append (hs.valid _)]

theorem unseen (hs : InputOk s) (h : Unseen Client.inbuf Effect.IsStream s t) : InputOk t := by
  have hreceived : ∀ k, receivedBy k t.trace = receivedBy k s.trace := fun k =>
    h.silent.flatMap_eq fun e => Effect.receivedBy_of_not_isStream
  have hhandled : ∀ k, handledBy k t.trace = handledBy k s.trace := fun k =>
    h.silent.flatMap_eq fun e => Effect.handledBy_of_not_isStream
  refine ⟨fun i hi => ?_, fun k => by rw [hreceived, hhandled]; exact hs.handled k⟩
  obtain ⟨hi', hconn, hinbuf⟩ := h.live i hi
  rw [hconn, hinbuf, hreceived, hhandled]
  exact hs.live i hi'

end InputOk

/-! ## Receiving -/

theorem receivedBy_recvChunk (s : Server) (i : Slot) (chunk : Bytes) (k : ℕ) :
    receivedBy k (recvChunk s i chunk).trace =
      receivedBy k s.trace ++ if (s.clients i).conn = k then chunk else [] := by
  rw [receivedBy, recvChunk, Server.emit_trace, List.flatMap_append, List.flatMap_singleton]
  rfl

theorem handledBy_recvChunk (s : Server) (i : Slot) (chunk : Bytes) (k : ℕ) :
    handledBy k (recvChunk s i chunk).trace = handledBy k s.trace := by
  rw [handledBy, recvChunk, Server.emit_trace, List.flatMap_append]
  exact List.append_nil _

theorem InputOk.recvChunk {s : Server} {i : Slot} (hs : InputOk s) (hn : Numbered s)
    (hl : (s.clients i).Live) (chunk : Bytes) : InputOk (recvChunk s i chunk) := by
  refine ⟨fun j hj => ?_, fun k => ?_⟩
  · rcases eq_or_ne j i with rfl | hne
    · have hself : (Core.recvChunk s j chunk).clients j =
          { s.clients j with inbuf := (s.clients j).inbuf ++ chunk } := Function.update_self ..
      rw [hself, receivedBy_recvChunk, handledBy_recvChunk, if_pos rfl, hs.live j hl,
        List.append_assoc]
    · have hother : (Core.recvChunk s i chunk).clients j = s.clients j :=
        Function.update_of_ne hne ..
      rw [hother] at hj ⊢
      rw [receivedBy_recvChunk, handledBy_recvChunk,
        if_neg fun heq => hne (hn.unique j i hj hl heq.symm), List.append_nil]
      exact hs.live j hj
  · rw [receivedBy_recvChunk, handledBy_recvChunk, StreamDecoder.Decoder.parse_append]
    exact (hs.handled k).trans (List.prefix_append ..)

/-! ## One turn of `drain_input` -/

theorem rejectHeader_inputUnseen {s : Server} {i : Slot} (hl : (s.clients i).Live) :
    InputUnseen s (rejectHeader s i) := .rejectHeader (fun _ _ => Action.inputUnseen) hl id

/-- A frame was handled that stood in front of the input buffer, and the buffer was shifted. -/
theorem InputOk.handle {s t : Server} {i : Slot} {frame : Frame} {n : ℕ} (hs : InputOk s)
    (hn : Numbered s) (hl : (s.clients i).Live)
    (hhead : frameHead cwMaxPayloadSize (s.clients i).inbuf = .item frame n)
    (hlive : ∀ j, (t.clients j).Live → (s.clients j).Live ∧
      (t.clients j).conn = (s.clients j).conn ∧ (t.clients j).inbuf =
        if j = i then (s.clients i).inbuf.drop n else (s.clients j).inbuf)
    (hreceived : ∀ k, receivedBy k t.trace = receivedBy k s.trace)
    (hhandled : ∀ k, handledBy k t.trace =
      handledBy k s.trace ++ if (s.clients i).conn = k then [frame] else []) : InputOk t := by
  refine ⟨fun j hj => ?_, fun k => ?_⟩
  · obtain ⟨hj', hconn, hinbuf⟩ := hlive j hj
    rw [hconn, hinbuf, hreceived, hhandled]
    rcases eq_or_ne j i with rfl | hne
    · have htake := (frameHead_item hhead).2.2.2
      rw [if_pos rfl, if_pos rfl, StreamDecoder.Codec.encodeAll_append, List.append_assoc,
        StreamDecoder.Codec.encodeAll_cons, StreamDecoder.Codec.encodeAll_nil, List.append_nil,
        cwFraming_encode, ← htake, List.take_append_drop]
      exact hs.live j hl
    · rw [if_neg hne, if_neg fun heq => hne (hn.unique j i hj' hl heq.symm), List.append_nil]
      exact hs.live j hj'
  · rw [hreceived, hhandled]
    rcases eq_or_ne (s.clients i).conn k with rfl | hk
    · rw [if_pos rfl, hs.parse hl, StreamDecoder.Decoder.parse_of_item hhead]
      exact ⟨_, (List.append_assoc ..).trans rfl⟩
    · rw [if_neg hk, List.append_nil]
      exact hs.handled k

theorem InputOk.serveFrame {s : Server} {i : Slot} {frame : Frame} {n : ℕ} (hs : InputOk s)
    (hn : Numbered s) (hl : (s.clients i).Live)
    (hhead : frameHead cwMaxPayloadSize (s.clients i).inbuf = .item frame n) :
    InputOk (serveFrame s i frame n).2 := by
  have hquiet := (handleFrame_actions (s := s.emit (.handled (s.clients i).conn frame)) (i := i)
    frame.type frame.payload hl).inputUnseen
  have hreceived : ∀ k, receivedBy k (handleFrame (s.emit (.handled (s.clients i).conn frame)) i
      frame.type frame.payload).trace = receivedBy k s.trace := by
    intro k
    rw [receivedBy, hquiet.silent.flatMap_eq fun e => Effect.receivedBy_of_not_isInput,
      Server.emit_trace, List.flatMap_append]
    exact List.append_nil _
  have hhandled : ∀ k, handledBy k (handleFrame (s.emit (.handled (s.clients i).conn frame)) i
      frame.type frame.payload).trace =
        handledBy k s.trace ++ if (s.clients i).conn = k then [frame] else [] := by
    intro k
    rw [handledBy, hquiet.silent.flatMap_eq fun e => Effect.handledBy_of_not_isInput,
      Server.emit_trace, List.flatMap_append, List.flatMap_singleton]
    rfl
  unfold Core.serveFrame
  simp only
  split_ifs with hlive
  · refine hs.handle hn hl hhead (fun j hj => ?_) hreceived hhandled
    rcases eq_or_ne j i with rfl | hne
    · obtain ⟨-, hconn, hinbuf⟩ := hquiet.live j hlive
      rw [Server.setClient_self, if_pos rfl]
      simp only
      rw [hinbuf, hconn]
      exact ⟨hl, rfl, rfl⟩
    · rw [Server.setClient_of_ne hne] at hj ⊢
      rw [if_neg hne]
      exact hquiet.live j hj
  · refine hs.handle hn hl hhead (fun j hj => ?_) hreceived hhandled
    have hne : j ≠ i := by
      rintro rfl
      exact hlive hj
    rw [if_neg hne]
    exact hquiet.live j hj

theorem InputOk.drainTurn {s : Server} {i : Slot} (hs : InputOk s) (hn : Numbered s)
    (hl : (s.clients i).Live) : InputOk (drainTurn s i).2 := by
  rw [drainTurn_eq]
  split
  · exact hs
  · exact hs.unseen ((rejectHeader_inputUnseen hl).mono fun _ => Effect.IsStream.isInput)
  · next hhead => exact hs.serveFrame hn hl hhead

/-! ## Every step -/

theorem InputOk.disconnect {s : Server} {i : Slot} {reason : Reason} (hs : InputOk s)
    (hl : (s.clients i).Live) : InputOk (disconnectClient s i reason) := hs.unseen (.disconnect hl id)

theorem InputOk.takeSent {s : Server} {i : Slot} {n : ℕ} {frame : OutFrame} {rest : List OutFrame}
    (hs : InputOk s) (hl : (s.clients i).Live) (hout : (s.clients i).out.toList = frame :: rest) :
    InputOk (takeSent s i n) := by
  refine hs.unseen (.takeSent hl hout ?_ fun _ => id)
  rintro _ _ ⟨_, _, rfl⟩
  rfl

/-- A new connection has received nothing and starts with an empty buffer. -/
theorem InputOk.occupy {s : Server} {slot : Slot} {fd : ℕ} (hs : InputOk s) (hn : Numbered s) :
    InputOk (occupySlot s slot fd) := by
  have hsilent : Silent Effect.IsStream s (occupySlot s slot fd) := .occupySlot id
  have hreceived : ∀ k, receivedBy k (occupySlot s slot fd).trace = receivedBy k s.trace :=
    fun k => hsilent.flatMap_eq fun e => Effect.receivedBy_of_not_isStream
  have hhandled : ∀ k, handledBy k (occupySlot s slot fd).trace = handledBy k s.trace :=
    fun k => hsilent.flatMap_eq fun e => Effect.handledBy_of_not_isStream
  refine ⟨fun j hj => ?_, fun k => ?_⟩
  · rcases eq_or_ne j slot with rfl | hne
    · have hself : (occupySlot s j fd).clients j =
          { Client.blank with fd := fd, conn := s.stats.totalConnections + 1 } :=
        Function.update_self ..
      have hfresh := hn.not_mentions (Nat.lt_succ_self s.stats.totalConnections)
      rw [hself, hreceived, hhandled, receivedBy, handledBy,
        flatMap_eq_nil_of_not_mentions (fun e => Effect.receivedBy_of_not_mentions) hfresh,
        flatMap_eq_nil_of_not_mentions (fun e => Effect.handledBy_of_not_mentions) hfresh]
      rfl
    · have hother : (occupySlot s slot fd).clients j = s.clients j := Function.update_of_ne hne ..
      rw [hother] at hj ⊢
      rw [hreceived, hhandled]
      exact hs.live j hj
  · rw [hreceived, hhandled]
    exact hs.handled k

theorem Step.inputOk {s t : Server} (h : Step s t) (hs : InputOk s) (hn : Numbered s) :
    InputOk t := by
  cases h with
  | accept _ =>
    unfold acceptConnection
    split
    · exact hs
    · exact hs.occupy hn
  | recv hl _ _ => exact hs.recvChunk hn hl _
  | drain hl => exact hs.drainTurn hn hl
  | send hl hout _ _ => exact hs.takeSent hl hout
  | disconnect hl => exact hs.disconnect hl

theorem inputOk {s : Server} (h : Reachable s) : InputOk s := by
  refine Transition.Reachable.invariant (P := InputOk) ?_ ?_ h
  · rintro _ ⟨maxQueueBytes, heap, hq, rfl⟩
    exact ⟨fun i hi => absurd hi Client.not_live_blank, fun k => List.prefix_rfl⟩
  · intro s t hr hs hst
    exact hst.inputOk hs (numbered (Reachable.moveReachable hr))

/-! ## The rule of the event loop

`P` holds between two calls, `Q i` while `drain_input` works on the buffer of slot `i`. -/

section Rule

variable {P : Server → Prop} {Q : Slot → Server → Prop}

/-- What `drain_input` and the calls around it must keep. -/
structure LoopRule (P : Server → Prop) (Q : Slot → Server → Prop) : Prop where
  init : ∀ maxQueueBytes heap, 0 < maxQueueBytes → P (Server.initial maxQueueBytes heap)
  accept : ∀ s fd nonblocking, P s → FreshFd s fd → P (acceptConnection s fd nonblocking)
  recv : ∀ s i chunk, P s → (s.clients i).Live → chunk ≠ [] →
    (s.clients i).inbuf.length + chunk.length ≤ cwInbufCap → Q i (recvChunk s i chunk)
  more : ∀ s i, Q i s → (s.clients i).Live →
    frameHead cwMaxPayloadSize (s.clients i).inbuf = .more → P s
  bad : ∀ s i, Q i s → (s.clients i).Live →
    frameHead cwMaxPayloadSize (s.clients i).inbuf = .bad → P (rejectHeader s i)
  item : ∀ s i frame n, Q i s → (s.clients i).Live →
    frameHead cwMaxPayloadSize (s.clients i).inbuf = .item frame n →
    if ((serveFrame s i frame n).2.clients i).Live then Q i (serveFrame s i frame n).2
    else P (serveFrame s i frame n).2
  send : ∀ s i n frame rest, P s → (s.clients i).Live → (s.clients i).out.toList = frame :: rest →
    0 < n → n ≤ frame.len - frame.sent → P (takeSent s i n)
  close : ∀ s i reason, P s → (s.clients i).Live →
    (reason = .inputBufferFull → cwInbufCap ≤ (s.clients i).inbuf.length) →
    P (disconnectClient s i reason)

namespace LoopRule

variable {s : Server} {i : Slot}

/-- The loop of `drain_input`, given turns enough. -/
theorem drainLoop (rule : LoopRule P Q) {n : ℕ} (hs : Q i s) (hl : (s.clients i).Live)
    (hlen : (s.clients i).inbuf.length < n) : P (drainLoop n s i).2 := by
  induction n generalizing s with
  | zero => omega
  | succ n ih =>
    simp only [Core.drainLoop, drainTurn_eq]
    cases hhead : frameHead cwMaxPayloadSize (s.clients i).inbuf with
    | more => exact rule.more s i hs hl hhead
    | bad => exact rule.bad s i hs hl hhead
    | item frame k =>
      have hserve := rule.item s i frame k hs hl hhead
      simp only [serveFrame] at hserve ⊢
      split_ifs at hserve ⊢ with hlive hlive'
      · refine ih hserve (by rwa [Server.setClient_self]) ?_
        have hquiet := (handleFrame_actions (s := s.emit (.handled (s.clients i).conn frame))
          (i := i) frame.type frame.payload hl).inputUnseen
        obtain ⟨-, hk, hle, -⟩ := frameHead_item hhead
        rw [Server.setClient_self]
        simp only
        rw [(hquiet.live i hlive).2.2, Server.emit_clients, List.length_drop]
        unfold cwFrameHeaderSize at hk
        omega
      · exact absurd (by rwa [Server.setClient_self]) hlive'
      · exact hserve

/-- `read_from_client`, whatever `recv` answers. -/
theorem readFromClient (rule : LoopRule P Q) {rs : List RecvResult} (hs : P s)
    (hl : (s.clients i).Live) (hrs : .data [] ∉ rs) : P (readFromClient s i rs) := by
  induction rs generalizing s with
  | nil => exact hs
  | cons r rs ih =>
    have hrs' : RecvResult.data [] ∉ rs := fun h => hrs (List.mem_cons_of_mem _ h)
    simp only [Core.readFromClient]
    split_ifs with hfree
    · exact rule.close s i _ hs hl fun _ => by omega
    · cases r with
      | data bytes =>
        have hlen := List.length_take_le (cwInbufCap - (s.clients i).inbuf.length) bytes
        have hlive := live_recvChunk hl (bytes.take (cwInbufCap - (s.clients i).inbuf.length))
        have hdrain := rule.drainLoop (rule.recv s i _ hs hl (stored_ne_nil hfree hrs) (by omega))
          hlive (Nat.lt_succ_self _)
        have hstay := live_of_drainInput hlive
        simp only
        rw [drainInput] at hstay ⊢
        cases hd : Core.drainLoop _ _ i with
        | mk r t =>
          rw [hd] at hdrain hstay
          cases r with
          | true => exact ih hdrain (hstay rfl) hrs'
          | false => exact hdrain
      | eof => exact rule.close s i _ hs hl (fun h => by cases h)
      | again => exact hs
      | intr => exact ih hs hl hrs'
      | failed => exact rule.close s i _ hs hl (fun h => by cases h)

/-- `write_to_client`, whatever `send` answers. -/
theorem writeToClient (rule : LoopRule P Q) {rs : List SendResult} (hs : P s)
    (hl : (s.clients i).Live) : P (writeToClient s i rs) := by
  induction rs generalizing s with
  | nil => exact hs
  | cons r rs ih =>
    rw [Core.writeToClient]
    cases hout : (s.clients i).out.toList with
    | nil => exact hs
    | cons frame rest =>
      cases r with
      | took n =>
        simp only
        split_ifs with hn
        · exact rule.close s i _ hs hl (fun h => by cases h)
        · exact ih (rule.send s i _ frame rest hs hl hout (Nat.pos_of_ne_zero hn)
            (Nat.min_le_right ..)) (live_takeSent hl)
      | again => exact hs
      | intr => exact ih hs hl
      | failed => exact rule.close s i _ hs hl (fun h => by cases h)

/-- **What the rule keeps holds between any two calls.** -/
theorem callReachable (rule : LoopRule P Q) (h : CallReachable s) : P s := by
  refine Transition.Reachable.invariant ?_ (fun s t _ hs hst => ?_) h
  · rintro _ ⟨maxQueueBytes, heap, hq, rfl⟩
    exact rule.init maxQueueBytes heap hq
  · cases hst with
    | accept hfd => exact rule.accept _ _ _ hs hfd
    | read hl hrs => exact rule.readFromClient hs hl hrs
    | write hl => exact rule.writeToClient hs hl
    | pollError hl => exact rule.close _ _ _ hs hl (fun h => by cases h)

end LoopRule

end Rule

/-! ## Whole calls -/

/-- **The invariant of the event loop.**  Outside `drain_input` for the slot `busy`, no input
buffer of a live client starts with a complete frame; and a connection was closed for a full
input buffer only after an oversized header. -/
structure InputInv (busy : Option Slot) (s : Server) : Prop where
  numbered : Numbered s
  input : InputOk s
  settled : ∀ j, busy ≠ some j → (s.clients j).Live →
    ∀ f n, frameHead cwMaxPayloadSize (s.clients j).inbuf ≠ .item f n
  full : ∀ k, .closed k .inputBufferFull ∈ s.trace → Oversized (receivedBy k s.trace)

namespace InputInv

variable {busy : Option Slot} {s t : Server} {i : Slot}

theorem unseen (hs : InputInv busy s) (hn : Numbered t) (h : InputUnseen s t) :
    InputInv busy t := by
  refine ⟨hn, hs.input.unseen (h.mono fun _ => Effect.IsStream.isInput), fun j hj hl => ?_,
    fun k hk => ?_⟩
  · obtain ⟨hl', -, hinbuf⟩ := h.live j hl
    rw [hinbuf]
    exact hs.settled j hj hl'
  · have hreceived : receivedBy k t.trace = receivedBy k s.trace :=
      h.silent.flatMap_eq fun e => Effect.receivedBy_of_not_isInput
    rw [hreceived]
    exact hs.full k ((h.silent.mem_trace_iff (Effect.isInput_full k)).mp hk)

/-- The end of `drain_input`: the slot has no complete frame left, or no connection. -/
theorem settle (hs : InputInv (some i) s) (hi : (s.clients i).Live →
    ∀ f n, frameHead cwMaxPayloadSize (s.clients i).inbuf ≠ .item f n) : InputInv none s := by
  refine ⟨hs.numbered, hs.input, fun j _ => ?_, hs.full⟩
  rcases eq_or_ne j i with rfl | hne
  · exact hi
  · exact hs.settled j fun heq => hne (Option.some.inj heq).symm

theorem recvChunk (hs : InputInv none s) (hl : (s.clients i).Live) (chunk : Bytes)
    (hn : Numbered (recvChunk s i chunk)) : InputInv (some i) (recvChunk s i chunk) := by
  refine ⟨hn, hs.input.recvChunk hs.numbered hl chunk, fun j hj hlj => ?_, fun k hk => ?_⟩
  · have hne : j ≠ i := fun heq => hj (congrArg some heq.symm)
    have hother : (Core.recvChunk s i chunk).clients j = s.clients j := Function.update_of_ne hne ..
    rw [hother] at hlj ⊢
    exact hs.settled j (by simp) hlj
  · have hk' : Effect.closed k .inputBufferFull ∈ s.trace := by
      rcases List.mem_append.mp hk with hk | hk
      · exact hk
      · cases List.mem_singleton.mp hk
    rw [receivedBy_recvChunk, if_neg (hs.numbered.closed k _ hk' i hl), List.append_nil]
    exact hs.full k hk'

theorem serveFrame {frame : Frame} {n : ℕ} (hs : InputInv (some i) s) (hl : (s.clients i).Live)
    (hhead : frameHead cwMaxPayloadSize (s.clients i).inbuf = .item frame n) :
    InputInv (some i) (serveFrame s i frame n).2 := by
  have hquiet := (handleFrame_actions (s := s.emit (.handled (s.clients i).conn frame)) (i := i)
    frame.type frame.payload hl).inputUnseen
  have hn := Transition.preserved_of_run (P := Numbered) (fun _ _ hm hs => hm.numbered hs)
    (serveFrame_moves frame n hl) hs.numbered
  have htrace : (Core.serveFrame s i frame n).2.trace = (handleFrame
      (s.emit (.handled (s.clients i).conn frame)) i frame.type frame.payload).trace := by
    unfold Core.serveFrame
    simp only
    split_ifs <;> rfl
  have hclients : ∀ j, j ≠ i → (Core.serveFrame s i frame n).2.clients j = (handleFrame
      (s.emit (.handled (s.clients i).conn frame)) i frame.type frame.payload).clients j := by
    intro j hne
    unfold Core.serveFrame
    simp only
    split_ifs
    · exact Function.update_of_ne hne ..
    · rfl
  refine ⟨hn, hs.input.serveFrame hs.numbered hl hhead, fun j hj hlj => ?_, fun k hk => ?_⟩
  · have hne : j ≠ i := fun heq => hj (congrArg some heq.symm)
    rw [hclients j hne] at hlj ⊢
    obtain ⟨hlj', -, hinbuf⟩ := hquiet.live j hlj
    rw [hinbuf]
    exact hs.settled j hj hlj'
  · rw [htrace] at hk ⊢
    have hreceived : receivedBy k (handleFrame (s.emit (.handled (s.clients i).conn frame)) i
        frame.type frame.payload).trace = receivedBy k s.trace := by
      rw [receivedBy, hquiet.silent.flatMap_eq fun e => Effect.receivedBy_of_not_isInput,
        Server.emit_trace, List.flatMap_append]
      exact List.append_nil _
    rw [hreceived]
    rcases List.mem_append.mp ((hquiet.silent.mem_trace_iff (Effect.isInput_full k)).mp hk) with hk | hk
    · exact hs.full k hk
    · cases List.mem_singleton.mp hk

/-- A rejected header stays in front of the buffer. -/
theorem rejectHeader (hs : InputInv (some i) s) (hl : (s.clients i).Live)
    (hhead : frameHead cwMaxPayloadSize (s.clients i).inbuf = .bad) :
    InputInv none (rejectHeader s i) := by
  have hquiet := rejectHeader_inputUnseen hl
  have hn := Transition.preserved_of_run (P := Numbered) (fun _ _ hm hs => hm.numbered hs)
    (rejectHeader_moves hl) hs.numbered
  refine (hs.unseen hn hquiet).settle fun hl' f k hf => ?_
  rw [(hquiet.live i hl').2.2, hhead] at hf
  cases hf

/-- An incomplete frame is left in the buffer. -/
theorem incomplete (hs : InputInv (some i) s)
    (hhead : frameHead cwMaxPayloadSize (s.clients i).inbuf = .more) : InputInv none s := by
  refine hs.settle fun _ f k hf => ?_
  rw [hhead] at hf
  cases hf

/-- A connection whose input buffer is full between two calls sent an oversized header. -/
theorem closeFull (hs : InputInv none s) (hl : (s.clients i).Live)
    (hfull : cwInbufCap ≤ (s.clients i).inbuf.length) :
    InputInv none (disconnectClient s i .inputBufferFull) := by
  have hsettled := hs.settled i (by simp) hl
  have hbad : frameHead cwMaxPayloadSize (s.clients i).inbuf = .bad := by
    cases hhead : frameHead cwMaxPayloadSize (s.clients i).inbuf with
    | more => exact absurd (length_lt_of_head_more hhead) (not_lt.mpr hfull)
    | bad => rfl
    | item f n => exact absurd hhead (hsettled f n)
  have hquiet : Unseen Client.inbuf Effect.IsStream s (disconnectClient s i .inputBufferFull) :=
    .disconnect hl id
  have hreceived : ∀ k, receivedBy k (disconnectClient s i .inputBufferFull).trace =
      receivedBy k s.trace := fun k =>
    hquiet.silent.flatMap_eq fun e => Effect.receivedBy_of_not_isStream
  refine ⟨Move.numbered (.disconnect hl) hs.numbered, hs.input.disconnect hl,
    fun j hj hlj => ?_, fun k hk => ?_⟩
  · obtain ⟨hj', -, hinbuf⟩ := hquiet.live j hlj
    rw [hinbuf]
    exact hs.settled j hj hj'
  · rw [hreceived]
    rw [disconnectClient_trace _ _ _ hl, List.mem_append, List.mem_singleton] at hk
    rcases hk with hk | hk
    · exact hs.full k hk
    · injection hk with hk _
      rw [hk, Oversized, hs.input.parse hl, parse_of_settled hsettled]
      exact hbad

/-- Any other end of a connection. -/
theorem close {reason : Reason} (hs : InputInv none s) (hl : (s.clients i).Live)
    (hr : reason ≠ .inputBufferFull) : InputInv none (disconnectClient s i reason) :=
  hs.unseen (Move.numbered (.disconnect hl) hs.numbered) (.disconnect hl hr)

/-- `send` is invisible on the input side. -/
theorem takeSent {n : ℕ} {frame : OutFrame} {rest : List OutFrame} (hs : InputInv none s)
    (hl : (s.clients i).Live) (hout : (s.clients i).out.toList = frame :: rest) (hpos : 0 < n)
    (hle : n ≤ frame.len - frame.sent) : InputInv none (takeSent s i n) := by
  refine hs.unseen (Move.numbered (.send hl hout hpos hle) hs.numbered)
    (.takeSent hl hout ?_ fun _ => id)
  rintro _ _ ⟨_, _, rfl⟩
  rfl

/-- A new connection starts with an empty buffer. -/
theorem accept {fd : ℕ} {nonblocking : Bool} (hs : InputInv none s) :
    InputInv none (acceptConnection s fd nonblocking) := by
  unfold acceptConnection
  cases (freeSlot s).filter fun _ => nonblocking with
  | none => exact hs
  | some slot =>
    have hsilent : Silent Effect.IsInput s (occupySlot s slot fd) := .occupySlot id
    have hreceived : ∀ k, receivedBy k (occupySlot s slot fd).trace = receivedBy k s.trace :=
      fun k => hsilent.flatMap_eq fun e => Effect.receivedBy_of_not_isInput
    refine ⟨hs.numbered.occupy, hs.input.occupy hs.numbered, fun j hj hlj => ?_, fun k hk => ?_⟩
    · rcases eq_or_ne j slot with rfl | hne
      · have hself : (occupySlot s j fd).clients j =
            { Client.blank with fd := fd, conn := s.stats.totalConnections + 1 } :=
          Function.update_self ..
        rw [hself]
        rintro f n ⟨⟩
      · have hother : (occupySlot s slot fd).clients j = s.clients j :=
          Function.update_of_ne hne ..
        rw [hother] at hlj ⊢
        exact hs.settled j hj hlj
    · rw [hreceived]
      exact hs.full k ((hsilent.mem_trace_iff (Effect.isInput_full k)).mp hk)

end InputInv

theorem inputInv_rule : LoopRule (InputInv none) (fun i => InputInv (some i)) where
  init maxQueueBytes heap hq :=
    ⟨numbered (.init ⟨maxQueueBytes, heap, hq, rfl⟩),
      ⟨fun i hi => absurd hi Client.not_live_blank, fun k => List.prefix_rfl⟩,
      fun i _ hi => absurd hi Client.not_live_blank, fun k hk => absurd hk List.not_mem_nil⟩
  accept _ _ _ hs _ := hs.accept
  recv _ _ chunk hs hl hne hcap :=
    hs.recvChunk hl chunk (Move.numbered (.receive hl hne hcap) hs.numbered)
  more _ _ hs _ hhead := hs.incomplete hhead
  bad _ _ hs hl hhead := hs.rejectHeader hl hhead
  item s i frame n hs hl hhead := by
    have hserve := hs.serveFrame hl hhead
    split_ifs with hlive
    · exact hserve
    · exact hserve.settle fun h => absurd h hlive
  send _ _ _ _ _ hs hl hout hpos hle := hs.takeSent hl hout hpos hle
  close s i reason hs hl hfull := by
    by_cases hr : reason = .inputBufferFull
    · subst hr
      exact hs.closeFull hl (hfull rfl)
    · exact hs.close hl hr

theorem inputInv {s : Server} (h : CallReachable s) : InputInv none s :=
  inputInv_rule.callReachable h

/-- **Stream reassembly.**  Between any two calls of the event loop, and however `recv` cut the
bytes received from a connection: for a live connection, the frames `handle_frame` was called
with are exactly the complete frames of these bytes, in order, up to the incomplete tail or the
first header that announces too much, and while there is no such header `inbuf` is that tail
and has room.  For every connection, living or closed, nothing but a prefix of these frames was
handled, and it was closed for a full input buffer only behind such a header. -/
theorem stream_reassembly {s : Server} (h : CallReachable s) :
    (∀ i, (s.clients i).Live →
      handledBy (s.clients i).conn s.trace =
        (cwFraming.parse (receivedBy (s.clients i).conn s.trace)).1 ∧
      (¬ Oversized (receivedBy (s.clients i).conn s.trace) →
        (s.clients i).inbuf = (cwFraming.parse (receivedBy (s.clients i).conn s.trace)).2 ∧
          (s.clients i).inbuf.length < cwInbufCap)) ∧
    (∀ k, handledBy k s.trace <+: (cwFraming.parse (receivedBy k s.trace)).1) ∧
    ∀ k, .closed k .inputBufferFull ∈ s.trace → Oversized (receivedBy k s.trace) := by
  have hs := inputInv h
  refine ⟨fun i hl => ?_, hs.input.handled, hs.full⟩
  have hsettled := hs.settled i (by simp) hl
  have hparse := hs.input.parse hl
  rw [parse_of_settled hsettled, List.append_nil] at hparse
  rw [hparse, Oversized, hparse]
  refine ⟨rfl, fun hsmall => ⟨rfl, ?_⟩⟩
  cases hhead : frameHead cwMaxPayloadSize (s.clients i).inbuf with
  | more => exact length_lt_of_head_more hhead
  | bad => exact absurd hhead hsmall
  | item f n => exact absurd hhead (hsettled f n)

/-- The frame of a `LIST` request, cut inside its header. -/
def listInTwoChunks : Server :=
  readFromClient (twoClients 4096) 0 [.data [8, 0], .data [0, 0, 0], .again]

theorem callReachable_listInTwoChunks : CallReachable listInTwoChunks :=
  Transition.Reachable.step (callReachable_twoClients (by decide))
    (Call.read (s := twoClients 4096) (i := 0) (by decide) (by decide))

theorem stream_reassembly_list : handledBy 1 listInTwoChunks.trace =
    (cwFraming.parse (receivedBy 1 listInTwoChunks.trace)).1 :=
  ((stream_reassembly callReachable_listInTwoChunks).1 0 (by decide)).1

end Core
end ChannelWire
