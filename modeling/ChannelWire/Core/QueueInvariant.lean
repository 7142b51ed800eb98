import Mathlib.Algebra.Order.BigOperators.Group.List
import Mathlib.Algebra.Order.Group.Nat
import ChannelWire.Core.Actions
import ChannelWire.Core.Runs

/-!
# The outgoing queues

`queued_bytes`, the two queue pointers and the partial offset of the first frame are
maintained in `enqueue_payload`, `write_to_client` and `free_queue`.  `QueueOk` says how they
belong together, `queuesOk` that they do so between any two moves of any run.

The pointers themselves are settled by the type of `out`: a `Queue` carries the proof that
its cells form a chain from the head pointer to the tail pointer.
-/

namespace ChannelWire
namespace Core

open LinkedQueue

/-! ## One frame -/

/-- The frame holds what its header announces, and no more than the largest frame. -/
structure OutFrame.Sized (f : OutFrame) : Prop where
  header : ∃ h, cwParseHeader f.data = some h ∧ f.len = cwFrameHeaderSize + h.payloadLen
  length_data : f.data.length = f.len
  len_le : f.len ≤ cwFrameHeaderSize + cwMaxPayloadSize

theorem OutFrame.Sized.len_pos {f : OutFrame} (h : f.Sized) : 0 < f.len := by
  obtain ⟨header, -, hlen⟩ := h.header
  unfold cwFrameHeaderSize at hlen
  omega

theorem OutFrame.sized_of_eq {f g : OutFrame} (h : f.Sized) (hd : g.data = f.data)
    (hl : g.len = f.len) : g.Sized :=
  ⟨by rw [hd, hl]; exact h.header, by rw [hd, hl]; exact h.length_data, by rw [hl]; exact h.len_le⟩

theorem cwParseHeader_encode {f : Frame} (hf : f.payload.length ≤ cwMaxPayloadSize) (r : Bytes) :
    cwParseHeader (f.encode ++ r) = some ⟨f.type, f.payload.length⟩ := by
  have hlt : f.payload.length < 4294967296 := lt_of_le_of_lt hf (by decide)
  have hnum := fromBe_be32 hlt
  have happ : f.encode ++ r = f.type :: be32 f.payload.length ++ (f.payload ++ r) := by
    rw [Frame.encode, cwWriteHeader, List.append_assoc]
  rw [happ]
  unfold be32 at hnum ⊢
  rw [List.cons_append, List.cons_append, List.cons_append, List.cons_append, List.cons_append,
    List.nil_append, cwParseHeader_header, hnum, if_neg (not_lt.mpr hf)]

/-- The data of a new frame is the encoding of the frame it was made for. -/
theorem OutFrame.data_make (type : ServerMsgType) (payload : Bytes) :
    (OutFrame.make type payload).data = Frame.encode ⟨type.toByte, payload⟩ := rfl

theorem OutFrame.sized_make {type : ServerMsgType} {payload : Bytes}
    (h : payload.length ≤ cwMaxPayloadSize) : (OutFrame.make type payload).Sized := by
  refine ⟨⟨⟨type.toByte, payload.length⟩, ?_, rfl⟩, ?_, Nat.add_le_add_left h _⟩
  · have hparse := cwParseHeader_encode (f := ⟨type.toByte, payload⟩) h []
    rwa [List.append_nil] at hparse
  · rw [OutFrame.data_make, Frame.length_encode]
    rfl

/-! ## One queue -/

/-- The counter, the offsets and the sizes of a queue belong together. -/
structure QueueOk (limit : ℕ) (c : Client) : Prop where
  sum : c.queuedBytes = (c.out.toList.map OutFrame.len).sum
  bound : c.queuedBytes ≤ limit
  sized : ∀ f ∈ c.out.toList, f.Sized
  head : ∀ f ∈ c.out.toList.head?, f.sent < f.len
  others : ∀ f ∈ c.out.toList.tail, f.sent = 0

namespace QueueOk

variable {limit : ℕ} {c d : Client}

/-- Only the queue and its counter matter. -/
theorem congr (h : QueueOk limit c) (hout : d.out = c.out)
    (hq : d.queuedBytes = c.queuedBytes) : QueueOk limit d := by
  obtain ⟨hsum, hbound, hsized, hhead, hothers⟩ := h
  exact ⟨by rw [hq, hout, hsum], by rwa [hq], by rwa [hout], by rwa [hout], by rwa [hout]⟩

theorem of_empty (hout : d.out.toList = []) (hq : d.queuedBytes = 0) : QueueOk limit d := by
  refine ⟨by rw [hq, hout]; rfl, by omega, ?_, ?_, ?_⟩ <;> simp [hout]

/-- `queued_bytes -= frame->len` does not underflow. -/
theorem len_le (h : QueueOk limit c) {f : OutFrame} (hf : f ∈ c.out.toList) :
    f.len ≤ c.queuedBytes := by
  rw [h.sum]
  exact List.single_le_sum (by simp) _ (List.mem_map_of_mem hf)

/-- Linking a frame that the limit leaves room for. -/
theorem push {type : ServerMsgType} {payload : Bytes} (h : QueueOk limit c)
    (hlen : payload.length ≤ cwMaxPayloadSize)
    (hroom : c.queuedBytes + cwFrameHeaderSize + payload.length ≤ limit) :
    QueueOk limit { c with
      out := c.out.push (OutFrame.make type payload)
      queuedBytes := c.queuedBytes + (OutFrame.make type payload).len } := by
  have hnew : (OutFrame.make type payload).len = cwFrameHeaderSize + payload.length := rfl
  refine ⟨?_, ?_, ?_, ?_, ?_⟩
  · simp only [Queue.toList_push, List.map_append, List.sum_append, h.sum]
    simp
  · simp only [hnew]
    omega
  · intro f hf
    rw [Queue.toList_push, List.mem_append, List.mem_singleton] at hf
    rcases hf with hf | rfl
    · exact h.sized f hf
    · exact OutFrame.sized_make hlen
  · intro f hf
    simp only [Queue.toList_push] at hf
    cases hl : c.out.toList with
    | nil =>
      rw [hl, List.nil_append, List.head?_cons, Option.mem_some_iff] at hf
      subst hf
      exact (OutFrame.sized_make hlen).len_pos
    | cons g l =>
      rw [hl, List.cons_append, List.head?_cons, Option.mem_some_iff] at hf
      subst hf
      exact h.head _ (by rw [hl]; rfl)
  · intro f hf
    simp only [Queue.toList_push] at hf
    cases hl : c.out.toList with
    | nil =>
      rw [hl] at hf
      cases hf
    | cons g l =>
      rw [hl, List.cons_append, List.tail_cons, List.mem_append, List.mem_singleton] at hf
      rcases hf with hf | rfl
      · exact h.others f (by rwa [hl])
      · rfl

/-- The first frame was sent whole and is unlinked. -/
theorem unlink {frame : OutFrame} {rest : List OutFrame} (h : QueueOk limit c)
    (hout : c.out.toList = frame :: rest) (hd : d.out.toList = rest)
    (hq : d.queuedBytes = c.queuedBytes - frame.len) : QueueOk limit d := by
  have hsum := h.sum
  rw [hout, List.map_cons, List.sum_cons] at hsum
  refine ⟨by rw [hq, hd]; omega, le_trans (by omega) h.bound, ?_, ?_, ?_⟩
  · intro f hf
    exact h.sized f (by rw [hout]; exact List.mem_cons_of_mem _ (hd ▸ hf))
  · intro f hf
    rw [hd] at hf
    have hmem : f ∈ rest := List.mem_of_mem_head? hf
    have hsent := h.others f (by rwa [hout])
    have hpos := (h.sized f (by rw [hout]; exact List.mem_cons_of_mem _ hmem)).len_pos
    omega
  · intro f hf
    rw [hd] at hf
    exact h.others f (by rw [hout]; exact List.mem_of_mem_tail hf)

/-- A part of the first frame was sent. -/
theorem advance {frame : OutFrame} {rest : List OutFrame} {sent : ℕ} (h : QueueOk limit c)
    (hout : c.out.toList = frame :: rest) (hsent : sent < frame.len)
    (hd : d.out.toList = { frame with sent := sent } :: rest)
    (hq : d.queuedBytes = c.queuedBytes) : QueueOk limit d := by
  have hsum := h.sum
  rw [hout, List.map_cons, List.sum_cons] at hsum
  refine ⟨?_, by rw [hq]; exact h.bound, ?_, ?_, ?_⟩
  · rw [hq, hd, List.map_cons, List.sum_cons, hsum]
  · intro f hf
    rw [hd] at hf
    rcases List.mem_cons.mp hf with rfl | hf
    · exact OutFrame.sized_of_eq (h.sized frame (by rw [hout]; exact List.mem_cons_self)) rfl rfl
    · exact h.sized f (by rw [hout]; exact List.mem_cons_of_mem _ hf)
  · intro f hf
    rw [hd, List.head?_cons, Option.mem_some_iff] at hf
    subst hf
    exact hsent
  · intro f hf
    rw [hd, List.tail_cons] at hf
    exact h.others f (by rwa [hout])

end QueueOk

/-! ## All queues -/

/-- Every queue of the server is within the limit. -/
def QueuesOk (s : Server) : Prop := ∀ i, QueueOk s.maxQueueBytes (s.clients i)

theorem Action.queuesOk {r : Request} {s t : Server} (h : Action r s t) (hs : QueuesOk s) :
    QueuesOk t := by
  cases h with
  | push _ _ hlen hroom => exact forall_update hs ((hs _).push hlen hroom)
  | drop _ _ =>
    unfold QueuesOk
    rw [overflowDisconnect_clients, overflowDisconnect_maxQueueBytes]
    exact forall_update hs (.of_empty (Client.toList_reset _) rfl)
  | rename _ _ _ _ => exact forall_update hs ((hs _).congr rfl rfl)
  | openChannel _ _ _ => exact hs
  | join _ _ _ _ => exact forall_update hs ((hs _).congr rfl rfl)
  | switch _ _ _ _ => exact forall_update hs ((hs _).congr rfl rfl)
  | leave _ _ => exact forall_update hs ((hs _).congr rfl rfl)
  | count _ _ => exact hs
  | quit _ _ =>
    unfold QueuesOk
    rw [disconnectClient_clients, disconnectClient_maxQueueBytes]
    exact forall_update hs (.of_empty (Client.toList_reset _) rfl)
  | announce _ _ _ _ _ _ => exact hs

theorem Move.queuesOk {s t : Server} (h : Move s t) (hs : QueuesOk s) : QueuesOk t := by
  cases h with
  | act ha => exact ha.queuesOk hs
  | accept _ _ => exact forall_update hs (.of_empty Queue.toList_empty rfl)
  | receive _ _ _ => exact forall_update hs ((hs _).congr rfl rfl)
  | handle _ => exact hs
  | malformed _ => exact hs
  | shift _ => exact forall_update hs ((hs _).congr rfl rfl)
  | send _ hout hn hle =>
    obtain ⟨out, queuedBytes, hclients, hcases⟩ := takeSent_clients hout
    unfold QueuesOk
    rw [hclients, takeSent_maxQueueBytes]
    refine forall_update hs ?_
    rcases hcases with ⟨-, hrest, hq⟩ | ⟨hne, hfront, hq⟩
    · exact (hs _).unlink hout hrest hq
    · exact (hs _).advance hout (by omega) hfront hq
  | disconnect _ =>
    unfold QueuesOk
    rw [disconnectClient_clients, disconnectClient_maxQueueBytes]
    exact forall_update hs (.of_empty (Client.toList_reset _) rfl)

theorem queuesOk {s : Server} (h : MoveReachable s) : QueuesOk s := by
  refine MoveReachable.invariant ?_ (fun _ _ _ hs hm => hm.queuesOk hs) h
  intro maxQueueBytes heap _ i
  exact .of_empty Queue.toList_empty rfl

/-- **Queue bound and representation.**  In every reachable state and for every slot: the
frames of the queue form a chain of cells from the head pointer, which is null exactly when the
tail pointer is, and the tail pointer is the chain's last cell; `queued_bytes` is the sum of
their lengths and within the limit; every frame has the length its header announces, at most
that of the largest frame; the first one is not sent whole, the others not at all; and no
frame's length exceeds `queued_bytes`, from which it will be subtracted. -/
theorem queue_bound_and_representation {s : Server} (h : Reachable s) (i : Slot) :
    (s.clients i).queuedBytes = ((s.clients i).out.toList.map OutFrame.len).sum ∧
      (s.clients i).queuedBytes ≤ s.maxQueueBytes ∧
      ((s.clients i).out.raw.head = none ↔ (s.clients i).out.raw.tail = none) ∧
      (∃ cells : List (ℕ × OutFrame),
        Chain (s.clients i).out.raw.cells (s.clients i).out.raw.head cells ∧
          (s.clients i).out.raw.tail = (cells.map Prod.fst).getLast? ∧
          (s.clients i).out.toList = cells.map Prod.snd) ∧
      (∀ f ∈ (s.clients i).out.toList.head?, f.sent < f.len) ∧
      (∀ f ∈ (s.clients i).out.toList.tail, f.sent = 0) ∧
      (∀ f ∈ (s.clients i).out.toList, f.len ≤ 4101 ∧
        ∃ header, cwParseHeader f.data = some header ∧ f.len = 5 + header.payloadLen) ∧
      ∀ f ∈ (s.clients i).out.toList, f.len ≤ (s.clients i).queuedBytes := by
  have hq := queuesOk h.moveReachable i
  obtain ⟨cells, hw⟩ := (s.clients i).out.wf
  exact ⟨hq.sum, hq.bound, Queue.head_eq_none_iff_tail _,
    ⟨cells, hw.chain, hw.tail_eq, Queue.toList_eq hw⟩, hq.head, hq.others,
    fun f hf => ⟨(hq.sized f hf).len_le, (hq.sized f hf).header⟩, fun f hf => hq.len_le hf⟩

theorem queue_bound_and_representation_room :
    (roomWithText.clients 1).queuedBytes =
        ((roomWithText.clients 1).out.toList.map OutFrame.len).sum ∧
      (roomWithText.clients 1).queuedBytes ≤ roomWithText.maxQueueBytes :=
  have h := queue_bound_and_representation reachable_roomWithText 1
  ⟨h.1, h.2.1⟩

end Core
end ChannelWire
