import ChannelWire.Core.Turns
import ChannelWire.Core.Runs
import ChannelWire.Core.QueueInvariant
import ChannelWire.Protocol.Readers

/-!
# Output stream fidelity

What `send` took for a connection, followed by what is still queued for it, is what was
enqueued to it (`OutputOk`).  The frames are appended by the handlers of any client and sent
piece by piece by `write_to_client`; each move keeps the equation, since the numbers of live
connections are different and a frame's bytes leave the queue exactly when `send` takes them.

What the peer reads is therefore never wrong and never ahead (`output_stream_fidelity`).
-/

namespace ChannelWire
namespace Core

open LinkedQueue

/-- The bytes of a queue that `send` has not taken: the rest of the first frame from its
offset, then the other frames. -/
def unsentBytes : List OutFrame → Bytes
  | [] => []
  | f :: fs => f.data.drop f.sent ++ (fs.map OutFrame.data).flatten

@[simp] theorem unsentBytes_nil : unsentBytes [] = [] := rfl

/-- A queue none of whose frames was begun. -/
theorem unsentBytes_of_untouched {l : List OutFrame} (h : ∀ f ∈ l, f.sent = 0) :
    unsentBytes l = (l.map OutFrame.data).flatten := by
  cases l with
  | nil => rfl
  | cons f fs =>
    rw [unsentBytes, h f List.mem_cons_self, List.drop_zero, List.map_cons, List.flatten_cons]

theorem unsentBytes_concat (l : List OutFrame) {f : OutFrame} (hf : f.sent = 0) :
    unsentBytes (l ++ [f]) = unsentBytes l ++ f.data := by
  cases l with
  | nil => simp [unsentBytes, hf]
  | cons g l =>
    rw [List.cons_append, unsentBytes, unsentBytes, List.map_append, List.flatten_append]
    simp

/-! ## The invariant -/

/-- The effect concerns the output side of a connection. -/
def Effect.IsOutput : Effect → Prop
  | .enqueued _ _ => True
  | .sent _ _ => True
  | _ => False

theorem Effect.sentTo_of_not_isOutput {k : ℕ} {e : Effect} (h : ¬ e.IsOutput) :
    e.sentTo k = [] := by
  cases e <;> first | rfl | exact absurd trivial h

theorem Effect.enqueuedTo_of_not_isOutput {k : ℕ} {e : Effect} (h : ¬ e.IsOutput) :
    e.enqueuedTo k = [] := by
  cases e <;> first | rfl | exact absurd trivial h

/-- **Sent and unsent is enqueued**, for every live connection; for every connection, what was
sent is a prefix of what was enqueued, in frames of admissible size. -/
structure OutputOk (s : Server) : Prop where
  live : ∀ i, (s.clients i).Live →
    sentTo (s.clients i).conn s.trace ++ unsentBytes (s.clients i).out.toList =
      pyFraming.encodeAll (enqueuedTo (s.clients i).conn s.trace)
  sent : ∀ k, sentTo k s.trace <+: pyFraming.encodeAll (enqueuedTo k s.trace)
  small : ∀ k, ∀ f ∈ enqueuedTo k s.trace, f.payload.length ≤ cwMaxPayloadSize

namespace OutputOk

variable {s t : Server}

/-- Nothing is enqueued and nothing sent; no live client gets another queue. -/
theorem unseen (hs : OutputOk s) (h : Unseen Client.out Effect.IsOutput s t) : OutputOk t := by
  have hsent : ∀ k, sentTo k t.trace = sentTo k s.trace := fun k =>
    h.silent.flatMap_eq fun e => Effect.sentTo_of_not_isOutput
  have henq : ∀ k, enqueuedTo k t.trace = enqueuedTo k s.trace := fun k =>
    h.silent.flatMap_eq fun e => Effect.enqueuedTo_of_not_isOutput
  refine ⟨fun i hi => ?_, fun k => ?_, fun k => ?_⟩
  · obtain ⟨hi', hconn, hout⟩ := h.live i hi
    rw [hconn, hout, hsent, henq]
    exact hs.live i hi'
  · rw [hsent, henq]
    exact hs.sent k
  · rw [henq]
    exact hs.small k

/-- A frame is linked behind the queue of a live client. -/
theorem push {i : Slot} {type : ServerMsgType} {payload : Bytes} (hs : OutputOk s)
    (hn : Numbered s) (hl : (s.clients i).Live) (hlen : payload.length ≤ cwMaxPayloadSize) :
    OutputOk (pushFrame s i type payload) := by
  have hsent : ∀ k, sentTo k (pushFrame s i type payload).trace = sentTo k s.trace := by
    intro k
    rw [pushFrame_trace, sentTo, List.flatMap_append]
    exact List.append_nil _
  have hother : ∀ k, k ≠ (s.clients i).conn →
      enqueuedTo k (pushFrame s i type payload).trace = enqueuedTo k s.trace := by
    intro k hk
    rw [pushFrame_trace, enqueuedTo, List.flatMap_append, List.flatMap_singleton]
    simp only [Effect.enqueuedTo]
    rw [if_neg (Ne.symm hk), List.append_nil, enqueuedTo]
  have hself : enqueuedTo (s.clients i).conn (pushFrame s i type payload).trace =
      enqueuedTo (s.clients i).conn s.trace ++ [⟨type.toByte, payload⟩] := by
    rw [pushFrame_trace, enqueuedTo, List.flatMap_append, List.flatMap_singleton]
    simp only [Effect.enqueuedTo]
    rw [if_pos True.intro, enqueuedTo]
  refine ⟨fun j hj => ?_, fun k => ?_, fun k => ?_⟩
  · rw [pushFrame_clients] at hj ⊢
    rcases eq_or_ne j i with rfl | hne
    · rw [Function.update_self]
      simp only [Queue.toList_push]
      rw [unsentBytes_concat _ rfl, ← List.append_assoc, hsent, hself, hs.live j hl,
        StreamDecoder.Codec.encodeAll_append]
      simp [pyFraming_encode, OutFrame.data_make]
    · rw [Function.update_of_ne hne] at hj ⊢
      rw [hsent, hother _ fun heq => hne (hn.unique j i hj hl heq)]
      exact hs.live j hj
  · rw [hsent]
    rcases eq_or_ne k (s.clients i).conn with rfl | hk
    · rw [hself, StreamDecoder.Codec.encodeAll_append]
      exact (hs.sent _).trans (List.prefix_append ..)
    · rw [hother k hk]
      exact hs.sent k
  · rcases eq_or_ne k (s.clients i).conn with rfl | hk
    · rw [hself]
      intro f hf
      rcases List.mem_append.mp hf with hf | hf
      · exact hs.small _ f hf
      · rw [List.mem_singleton.mp hf]
        exact hlen
    · rw [hother k hk]
      exact hs.small k

/-- `send` takes bytes of the first frame. -/
theorem send {i : Slot} {n : ℕ} {frame : OutFrame} {rest : List OutFrame} (hs : OutputOk s)
    (hn : Numbered s) (hq : QueuesOk s) (hl : (s.clients i).Live)
    (hout : (s.clients i).out.toList = frame :: rest) : OutputOk (takeSent s i n) := by
  have henq : ∀ k, enqueuedTo k (takeSent s i n).trace = enqueuedTo k s.trace := by
    intro k
    rw [takeSent_trace hout, enqueuedTo, List.flatMap_append]
    exact List.append_nil _
  have hother : ∀ k, k ≠ (s.clients i).conn →
      sentTo k (takeSent s i n).trace = sentTo k s.trace := by
    intro k hk
    rw [takeSent_trace hout, sentTo, List.flatMap_append, List.flatMap_singleton]
    simp only [Effect.sentTo]
    rw [if_neg (Ne.symm hk), List.append_nil, sentTo]
  have hself : sentTo (s.clients i).conn (takeSent s i n).trace =
      sentTo (s.clients i).conn s.trace ++ (frame.data.drop frame.sent).take n := by
    rw [takeSent_trace hout, sentTo, List.flatMap_append, List.flatMap_singleton]
    simp only [Effect.sentTo]
    rw [if_pos True.intro, sentTo]
  obtain ⟨out, queuedBytes, hclients, hcases⟩ := takeSent_clients (n := n) hout
  -- what leaves the queue is what `send` took
  have hunsent : (frame.data.drop frame.sent).take n ++ unsentBytes out.toList =
      unsentBytes (s.clients i).out.toList := by
    have hsplit : (frame.data.drop frame.sent).take n ++ frame.data.drop (frame.sent + n) =
        frame.data.drop frame.sent := by
      rw [← List.drop_drop, List.take_append_drop]
    rw [hout, unsentBytes]
    rcases hcases with ⟨hlen, hrest, -⟩ | ⟨-, hfront, -⟩
    · have hfull : frame.data.drop (frame.sent + n) = [] := by
        have hsized := (hq i).sized frame (by rw [hout]; exact List.mem_cons_self)
        exact List.drop_eq_nil_of_le (by rw [hsized.length_data, hlen])
      rw [hfull, List.append_nil] at hsplit
      rw [hrest, unsentBytes_of_untouched fun f hf => (hq i).others f (by rwa [hout]), hsplit]
    · rw [hfront, unsentBytes, ← List.append_assoc, hsplit]
  have hlive : sentTo (s.clients i).conn (takeSent s i n).trace ++ unsentBytes out.toList =
      pyFraming.encodeAll (enqueuedTo (s.clients i).conn (takeSent s i n).trace) := by
    rw [hself, List.append_assoc, hunsent, hs.live i hl, henq]
  refine ⟨fun j hj => ?_, fun k => ?_, fun k => ?_⟩
  · rw [hclients] at hj ⊢
    rcases eq_or_ne j i with rfl | hne
    · rw [Function.update_self]
      exact hlive
    · rw [Function.update_of_ne hne] at hj ⊢
      rw [hother _ fun heq => hne (hn.unique j i hj hl heq), henq]
      exact hs.live j hj
  · rcases eq_or_ne k (s.clients i).conn with rfl | hk
    · exact ⟨_, hlive⟩
    · rw [hother k hk, henq]
      exact hs.sent k
  · rw [henq]
    exact hs.small k

/-- A connection gets a free slot: nothing was enqueued or sent under its number. -/
theorem occupy {slot : Slot} {fd : ℕ} (hs : OutputOk s) (hn : Numbered s) :
    OutputOk (occupySlot s slot fd) := by
  have hsilent : Silent Effect.IsOutput s (occupySlot s slot fd) := .occupySlot id
  have hsent : ∀ k, sentTo k (occupySlot s slot fd).trace = sentTo k s.trace := fun k =>
    hsilent.flatMap_eq fun e => Effect.sentTo_of_not_isOutput
  have henq : ∀ k, enqueuedTo k (occupySlot s slot fd).trace = enqueuedTo k s.trace := fun k =>
    hsilent.flatMap_eq fun e => Effect.enqueuedTo_of_not_isOutput
  refine ⟨fun j hj => ?_, fun k => ?_, fun k => ?_⟩
  · rcases eq_or_ne j slot with rfl | hne
    · have hself : (occupySlot s j fd).clients j =
          { Client.blank with fd := fd, conn := s.stats.totalConnections + 1 } :=
        Function.update_self ..
      have hfresh := hn.not_mentions (Nat.lt_succ_self s.stats.totalConnections)
      rw [hself, hsent, henq, sentTo, enqueuedTo,
        flatMap_eq_nil_of_not_mentions (fun e => Effect.sentTo_of_not_mentions) hfresh,
        flatMap_eq_nil_of_not_mentions (fun e => Effect.enqueuedTo_of_not_mentions) hfresh]
      rfl
    · have hother : (occupySlot s slot fd).clients j = s.clients j := Function.update_of_ne hne ..
      rw [hother] at hj ⊢
      rw [hsent, henq]
      exact hs.live j hj
  · rw [hsent, henq]
    exact hs.sent k
  · rw [henq]
    exact hs.small k

end OutputOk

theorem Action.outputOk {r : Request} {s t : Server} (h : Action r s t) (hs : OutputOk s)
    (hn : Numbered s) : OutputOk t := by
  rcases h.push_or_unseen with ⟨i, type, payload, heap, rfl, -, hl, hlen⟩ | hquiet
  · exact OutputOk.push ⟨hs.live, hs.sent, hs.small⟩
      ⟨hn.conn_le, hn.unique, hn.mentions_le, hn.closed⟩ hl hlen
  · refine hs.unseen (hquiet.mono fun e he => ?_)
    cases e with
    | enqueued => exact .inl (.inr (List.cons_ne_nil _ _))
    | sent k bytes => exact .inr ⟨k, bytes, rfl⟩
    | _ => cases he

theorem Move.outputOk {s t : Server} (h : Move s t) (hs : OutputOk s) (hn : Numbered s)
    (hq : QueuesOk s) : OutputOk t := by
  cases h with
  | act ha => exact ha.outputOk hs hn
  | accept _ _ => exact hs.occupy hn
  | receive hl _ _ =>
    exact hs.unseen (.setClient rfl (fun _ => ⟨hl, rfl, rfl⟩) (.concat rfl id))
  | handle _ => exact hs.unseen (.emit rfl rfl id)
  | malformed _ => exact hs.unseen (.emit rfl rfl id)
  | shift hl => exact hs.unseen (.update rfl rfl hl rfl rfl)
  | send hl hout _ _ => exact hs.send hn hq hl hout
  | disconnect hl => exact hs.unseen (.disconnect hl id)

theorem outputOk {s : Server} (h : MoveReachable s) : OutputOk s := by
  refine MoveReachable.invariant ?_
    (fun s t hr hs hm => hm.outputOk hs (numbered hr) (queuesOk hr)) h
  intro maxQueueBytes heap _
  exact ⟨fun i hi => absurd hi Client.not_live_blank, fun k => List.prefix_rfl,
    fun k f hf => absurd hf List.not_mem_nil⟩

/-- **Output stream fidelity.**  At every moment of every run: for a live connection, the bytes
`send` took for it, the unsent rest of its first queued frame and the other queued frames are the
encodings of the frames enqueued to it, in their order; and for every connection, living or
closed, what its peer has received so far is a prefix of that stream, from which `core_read` and
`read_frame` read a prefix of the enqueued frames. -/
theorem output_stream_fidelity {s : Server} (h : Reachable s) :
    (∀ i, (s.clients i).Live →
      sentTo (s.clients i).conn s.trace ++ unsentBytes (s.clients i).out.toList =
        ((enqueuedTo (s.clients i).conn s.trace).map Frame.encode).flatten) ∧
    ∀ k got, got <+: sentTo k s.trace →
      got <+: ((enqueuedTo k s.trace).map Frame.encode).flatten ∧
      readMany coreRead got.length got <+: enqueuedTo k s.trace ∧
      readMany readFrame got.length got <+: enqueuedTo k s.trace := by
  have hs := outputOk h.moveReachable
  refine ⟨hs.live, fun k got hgot => ?_⟩
  have hpre : got <+: pyFraming.encodeAll (enqueuedTo k s.trace) := hgot.trans (hs.sent k)
  have hread : readMany coreRead got.length got <+: enqueuedTo k s.trace := by
    rw [readMany_coreRead got (Nat.le_refl _)]
    refine StreamDecoder.Codec.parse_prefix (fun f hf => ?_) hpre
    exact pyFraming_valid.mpr ((hs.small k f hf).trans (by decide))
  have hsame : readFrame = coreRead := funext readFrame_eq_coreRead
  exact ⟨hpre, hread, by rw [hsame]; exact hread⟩

/-- `send` took the first three bytes of what was queued for `bob`. -/
theorem output_stream_fidelity_room :
    let s := takeSent roomWithText 1 3
    sentTo 2 s.trace ≠ [] ∧ unsentBytes (s.clients 1).out.toList ≠ [] ∧
      sentTo 2 s.trace ++ unsentBytes (s.clients 1).out.toList =
        ((enqueuedTo 2 s.trace).map Frame.encode).flatten := by
  obtain ⟨frame, rest, hout⟩ : ∃ frame rest, (roomWithText.clients 1).out.toList = frame :: rest :=
    List.exists_cons_of_ne_nil (by decide +kernel)
  have hlong : ∀ f ∈ (roomWithText.clients 1).out.toList, 3 ≤ f.len - f.sent := by decide +kernel
  have hreach : Reachable (takeSent roomWithText 1 3) := reachable_roomWithText.step
    (.send (by decide +kernel) hout (by decide) (hlong frame (hout ▸ List.mem_cons_self)))
  have hconn : ((takeSent roomWithText 1 3).clients 1).conn = 2 := by decide +kernel
  refine ⟨by decide +kernel, by decide +kernel, ?_⟩
  have hstream := (output_stream_fidelity hreach).1 1 (by decide +kernel)
  rwa [hconn] at hstream

end Core
end ChannelWire
