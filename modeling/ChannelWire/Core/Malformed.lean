import ChannelWire.Core.Endings
import ChannelWire.Core.InputStream
import ChannelWire.Core.Turns

/-!
# Rejected headers

A header that announces too much stays in front of the input buffer: `drain_input` rejects it,
and rejects it again at the end of every later `recv`, until the buffer is full.  The number of
rejections of a connection is one more than the number of the chunks that arrived behind the
complete header (`lateChunks`), whatever the cuts are (`RejectInv`).
-/

namespace ChannelWire
namespace Core

open LinkedQueue

/-! ## Chunks and rejections -/

/-- The chunk the effect received from `k`. -/
def Effect.chunkOf (k : ℕ) : Effect → List Bytes
  | received c bytes => if c = k then [bytes] else []
  | _ => []

/-- The chunks received from connection `k`. -/
def chunksOf (k : ℕ) (trace : List Effect) : List Bytes := trace.flatMap (Effect.chunkOf k)

instance (stream : Bytes) : Decidable (Oversized stream) :=
  inferInstanceAs (Decidable (_ = _))

/-- The number of chunks that follow a stream with an oversized header. -/
def late (chunks : List Bytes) : ℕ :=
  ((List.range chunks.length).filter fun m => Oversized (chunks.take m).flatten).length

/-- The chunks of connection `k` that arrived when its oversized header was complete. -/
def lateChunks (k : ℕ) (trace : List Effect) : ℕ := late (chunksOf k trace)

/-- The turns in which a header of connection `k` was rejected. -/
def rejections (k : ℕ) (trace : List Effect) : List Turn :=
  (turns trace).filter fun turn => turn.conn = k ∧ turn.request = none

/-- The frame a rejection enqueues. -/
def malformedFrame : Frame := ⟨ServerMsgType.error.toByte, ascii "malformed frame"⟩

/-- An oversized header stays one. -/
theorem Oversized.append {stream : Bytes} (h : Oversized stream) (rest : Bytes) :
    Oversized (stream ++ rest) := by
  have hparse := StreamDecoder.Decoder.parse_append_of_bad (D := cwFraming.toDecoder) h rest
  unfold Oversized
  rw [hparse]
  exact cwFraming.bad_stable h rest

theorem flatten_chunksOf (k : ℕ) (trace : List Effect) :
    (chunksOf k trace).flatten = receivedBy k trace := by
  induction trace with
  | nil => rfl
  | cons e trace ih =>
    have hfirst : (e.chunkOf k).flatten = e.receivedBy k := by
      cases e with
      | received c bytes =>
        rw [Effect.chunkOf, Effect.receivedBy]
        split_ifs
        · exact List.flatten_singleton
        · rfl
      | _ => rfl
    rw [chunksOf, List.flatMap_cons, List.flatten_append, hfirst, receivedBy, List.flatMap_cons]
    exact congrArg (e.receivedBy k ++ ·) ih

@[simp] theorem late_nil : late [] = 0 := rfl

theorem late_concat (chunks : List Bytes) (chunk : Bytes) :
    late (chunks ++ [chunk]) = late chunks + if Oversized chunks.flatten then 1 else 0 := by
  have hbefore : ((List.range chunks.length).filter fun m =>
        Oversized ((chunks ++ [chunk]).take m).flatten) =
      (List.range chunks.length).filter fun m => Oversized (chunks.take m).flatten := by
    refine List.filter_congr fun m hm => ?_
    rw [List.take_append_of_le_length (List.mem_range.mp hm).le]
  rw [late, List.length_append, List.length_singleton, List.range_succ, List.filter_append,
    List.length_append, hbefore, late]
  congr 1
  rw [List.filter_singleton, List.take_left]
  by_cases h : Oversized chunks.flatten
  · rw [if_pos h, decide_eq_true h]
    rfl
  · rw [if_neg h, decide_eq_false h]
    rfl

/-- Chunks are late behind an oversized header only. -/
theorem oversized_of_late_pos {chunks : List Bytes} (h : 0 < late chunks) :
    Oversized chunks.flatten := by
  obtain ⟨m, hm⟩ := List.length_pos_iff_exists_mem.mp h
  have hbad : Oversized (chunks.take m).flatten := of_decide_eq_true (List.mem_filter.mp hm).2
  rw [← List.take_append_drop m chunks, List.flatten_append]
  exact hbad.append _

/-- What a rejection enqueues. -/
theorem rejectHeader_trace {s : Server} {i : Slot} (hl : (s.clients i).Live) :
    (rejectHeader s i).trace = s.trace ++
        [.malformed (s.clients i).conn, .enqueued (s.clients i).conn malformedFrame] ∧
        ((rejectHeader s i).clients i).Live ∨
      (rejectHeader s i).trace = s.trace ++
        [.malformed (s.clients i).conn, .refused (s.clients i).conn malformedFrame,
          .closed (s.clients i).conn .queueOverflow] ∧ ¬ ((rejectHeader s i).clients i).Live := by
  unfold rejectHeader
  simp only
  generalize hu : (s.setStats { s.stats with malformedFrames := s.stats.malformedFrames + 1 }).emit
    (.malformed (s.clients i).conn) = u
  have hclients : u.clients = s.clients := by rw [← hu]; rfl
  have htrace : u.trace = s.trace ++ [.malformed (s.clients i).conn] := by rw [← hu]; rfl
  have hlu : (u.clients i).Live := by rwa [hclients]
  rw [show (s.setStats { s.stats with malformedFrames := s.stats.malformedFrames + 1 }).clients =
    s.clients from rfl, hu, safeEnqueueText]
  by_cases h : Accepts u i (ascii "malformed frame")
  · refine .inl ?_
    rw [enqueueOrDisconnect_of_accepts h, pushFrame_trace, Server.setHeap_trace, htrace,
      List.append_assoc, pushFrame_clients, Function.update_self, Server.setHeap_clients, hclients]
    exact ⟨rfl, hl⟩
  · obtain ⟨heap, hq⟩ := enqueueOrDisconnect_of_not_accepts .error h
    refine .inr ?_
    rw [hq, drop_trace hlu, htrace, hclients, List.append_assoc, overflowDisconnect_clients,
      Function.update_self]
    exact ⟨rfl, Client.not_live_reset _⟩

/-! ## What the calls do to them -/

theorem chunksOf_of_silent {s t : Server} {seen : Effect → Prop} (h : Silent seen s t)
    (hseen : ∀ k bytes, seen (.received k bytes)) (k : ℕ) :
    chunksOf k t.trace = chunksOf k s.trace := by
  refine h.flatMap_eq fun e he => ?_
  cases e with
  | received c bytes => exact absurd (hseen c bytes) he
  | _ => rfl

theorem chunksOf_recvChunk (s : Server) (i : Slot) (chunk : Bytes) (k : ℕ) :
    chunksOf k (recvChunk s i chunk).trace =
      chunksOf k s.trace ++ if (s.clients i).conn = k then [chunk] else [] := by
  rw [chunksOf, recvChunk, Server.emit_trace, List.flatMap_append, List.flatMap_singleton]
  rfl

/-- An effect that neither begins a turn nor enqueues. -/
theorem Effect.not_isTurn {e : Effect} (hbegins : e.begins = none) (houtput : e.output = []) :
    ¬ e.IsTurn := fun h => h.elim (fun hne => hne hbegins) fun hne => hne houtput

theorem rejections_of_turn {s t : Server} {i : Slot} {turn : Turn} (h : TakesTurn s t i turn)
    (k : ℕ) : rejections k t.trace = rejections k s.trace ++
      if turn.conn = k ∧ turn.request = none then [turn] else [] := by
  rw [rejections, h.turns_eq, List.filter_append, List.filter_singleton]
  congr 1
  by_cases hk : turn.conn = k ∧ turn.request = none
  · rw [if_pos hk, decide_eq_true hk]
    rfl
  · rw [if_neg hk, decide_eq_false hk]
    rfl

/-- The chunks of a connection are those of its stream, so a frame handled for it or a rejected
header adds none. -/
theorem chunksOf_serveFrame {s : Server} {i : Slot} (frame : Frame) (n : ℕ)
    (hl : (s.clients i).Live) (k : ℕ) :
    chunksOf k (serveFrame s i frame n).2.trace = chunksOf k s.trace := by
  have hquiet := (handleFrame_actions (s := s.emit (.handled (s.clients i).conn frame)) (i := i)
    frame.type frame.payload hl).inputUnseen
  rw [serveFrame_trace, chunksOf_of_silent hquiet.silent (fun _ _ => trivial), chunksOf,
    Server.emit_trace, List.flatMap_append]
  exact List.append_nil _

/-- A turn that meets a complete frame rejects nothing. -/
theorem rejections_serveFrame {s : Server} {i : Slot} {frame : Frame} {n : ℕ}
    (hl : (s.clients i).Live)
    (hhead : frameHead cwMaxPayloadSize (s.clients i).inbuf = .item frame n) (k : ℕ) :
    rejections k (serveFrame s i frame n).2.trace = rejections k s.trace := by
  have heq : (drainTurn s i).2 = (serveFrame s i frame n).2 := by rw [drainTurn_eq, hhead]
  rcases drainTurn_quiet_or_turn hl with hsame | ⟨turn, hturn⟩
  · rw [← heq, hsame]
  · have hsome : turn.request ≠ none := by
      intro hnone
      have hrequest := hturn.request
      rw [hnone, hhead] at hrequest
      cases hrequest
    rw [← heq, rejections_of_turn hturn, if_neg fun h => hsome h.2, List.append_nil]

/-- A bad header is rejected for its own connection. -/
theorem rejections_rejectHeader {s : Server} {i : Slot} (hl : (s.clients i).Live)
    (hhead : frameHead cwMaxPayloadSize (s.clients i).inbuf = .bad) (k : ℕ) :
    (rejections k (rejectHeader s i).trace).length =
      (rejections k s.trace).length + if (s.clients i).conn = k then 1 else 0 := by
  have heq : (drainTurn s i).2 = rejectHeader s i := by rw [drainTurn_eq, hhead]
  rcases drainTurn_quiet_or_turn hl with hsame | ⟨turn, hturn⟩
  · have htrace := congrArg (fun u => u.trace.length) (heq.symm.trans hsame)
    rcases rejectHeader_trace hl with ⟨hnew, -⟩ | ⟨hnew, -⟩ <;> rw [hnew] at htrace <;>
      simp at htrace
  · have hnone : turn.request = none := by
      cases hrequest : turn.request with
      | none => rfl
      | some frame =>
        have hitem := hturn.request
        rw [hrequest] at hitem
        obtain ⟨n, hitem⟩ := hitem
        rw [hhead] at hitem
        cases hitem
    rw [← heq, rejections_of_turn hturn, List.length_append, hturn.conn]
    by_cases hk : (s.clients i).conn = k
    · rw [if_pos hk, if_pos ⟨hk, hnone⟩]
      rfl
    · rw [if_neg hk, if_neg fun h => hk h.1]
      rfl

/-! ## The invariant -/

/-- As many rejections as late chunks, and one more for a complete header. -/
def Rejected (k : ℕ) (trace : List Effect) : Prop :=
  (rejections k trace).length =
    lateChunks k trace + if Oversized (receivedBy k trace) then 1 else 0

/-- The connection may have been closed before its header was rejected. -/
structure MaybeRejected (k : ℕ) (trace : List Effect) : Prop where
  le : (rejections k trace).length ≤
    lateChunks k trace + if Oversized (receivedBy k trace) then 1 else 0
  late : 0 < lateChunks k trace → (rejections k trace).length = lateChunks k trace + 1

theorem Rejected.maybe {k : ℕ} {trace : List Effect} (h : Rejected k trace) :
    MaybeRejected k trace := by
  refine ⟨le_of_eq h, fun hlate => ?_⟩
  have hbad := oversized_of_late_pos hlate
  rw [flatten_chunksOf] at hbad
  rw [h, if_pos hbad]

/-- **Rejections are counted by chunks.**  While `drain_input` works on the slot `busy`, the header
of its connection was rejected once for every late chunk before. -/
structure RejectInv (busy : Option Slot) (s : Server) : Prop where
  input : InputInv busy s
  live : ∀ j, busy ≠ some j → (s.clients j).Live → Rejected (s.clients j).conn s.trace
  work : ∀ j, busy = some j → (s.clients j).Live →
    (rejections (s.clients j).conn s.trace).length = lateChunks (s.clients j).conn s.trace ∧
      (0 < lateChunks (s.clients j).conn s.trace →
        frameHead cwMaxPayloadSize (s.clients j).inbuf = .bad)
  gone : ∀ k, (∀ j, (s.clients j).Live → (s.clients j).conn ≠ k) → MaybeRejected k s.trace

namespace RejectInv

variable {s t : Server} {i : Slot}

/-- What is said of a connection depends on its chunks and its rejections. -/
theorem congr {k : ℕ} (hchunks : chunksOf k t.trace = chunksOf k s.trace)
    (hrejections : (rejections k t.trace).length = (rejections k s.trace).length) :
    (Rejected k t.trace ↔ Rejected k s.trace) ∧
      (MaybeRejected k t.trace ↔ MaybeRejected k s.trace) := by
  have hreceived : receivedBy k t.trace = receivedBy k s.trace := by
    rw [← flatten_chunksOf, ← flatten_chunksOf, hchunks]
  have hlate : lateChunks k t.trace = lateChunks k s.trace := by
    rw [lateChunks, lateChunks, hchunks]
  refine ⟨by rw [Rejected, Rejected, hrejections, hlate, hreceived], fun h => ?_, fun h => ?_⟩
  · exact ⟨by rw [← hrejections, ← hlate, ← hreceived]; exact h.le,
      by rw [← hrejections, ← hlate]; exact h.late⟩
  · exact ⟨by rw [hrejections, hlate, hreceived]; exact h.le,
      by rw [hrejections, hlate]; exact h.late⟩

/-- A call that receives nothing and rejects nothing. -/
theorem quiet (hs : RejectInv none s) (hinput : InputInv none t)
    (hlive : ∀ j, (t.clients j).Live →
      (s.clients j).Live ∧ (t.clients j).conn = (s.clients j).conn)
    (hsilent : Silent Effect.IsTurn s t) (hchunks : ∀ k, chunksOf k t.trace = chunksOf k s.trace) :
    RejectInv none t := by
  have hrejections : ∀ k, rejections k t.trace = rejections k s.trace := fun k => by
    rw [rejections, rejections, turns_of_silent hsilent]
  have hcongr : ∀ k, _ := fun k => congr (hchunks k) (congrArg List.length (hrejections k))
  refine ⟨hinput, fun j _ hj => ?_, fun j hj => (by cases hj), fun k hk => ?_⟩
  · obtain ⟨hj', hconn⟩ := hlive j hj
    rw [hconn, (hcongr _).1]
    exact hs.live j (by simp) hj'
  · rw [(hcongr k).2]
    by_cases hgone : ∀ j, (s.clients j).Live → (s.clients j).conn ≠ k
    · exact hs.gone k hgone
    · push Not at hgone
      obtain ⟨j, hj, rfl⟩ := hgone
      exact (hs.live j (by simp) hj).maybe

/-- The end of the work on the buffer of a slot, or a part of it, is about its connection. -/
theorem of_work {busy : Option Slot} (hs : RejectInv (some i) s) (hl : (s.clients i).Live)
    (hbusy : busy = none ∨ busy = some i) (hinput : InputInv busy t)
    (hlive : ∀ j, (t.clients j).Live →
      (s.clients j).Live ∧ (t.clients j).conn = (s.clients j).conn)
    (hchunks : ∀ k, chunksOf k t.trace = chunksOf k s.trace)
    (hrejections : ∀ k, (s.clients i).conn ≠ k →
      (rejections k t.trace).length = (rejections k s.trace).length)
    (hself : busy = none → (t.clients i).Live → Rejected (s.clients i).conn t.trace)
    (hwork : busy = some i → (t.clients i).Live →
      (rejections (s.clients i).conn t.trace).length = lateChunks (s.clients i).conn t.trace ∧
        (0 < lateChunks (s.clients i).conn t.trace →
          frameHead cwMaxPayloadSize (t.clients i).inbuf = .bad))
    (hgone : ¬ (t.clients i).Live → MaybeRejected (s.clients i).conn t.trace) :
    RejectInv busy t := by
  have hunique := hs.input.numbered.unique
  refine ⟨hinput, fun j hj hlj => ?_, fun j hj hlj => ?_, fun k hk => ?_⟩
  · obtain ⟨hlj', hconn⟩ := hlive j hlj
    rw [hconn]
    rcases eq_or_ne j i with rfl | hne
    · exact hself (hbusy.resolve_right hj) hlj
    · have hother : (s.clients i).conn ≠ (s.clients j).conn := fun h =>
        hne (hunique i j hl hlj' h).symm
      rw [(congr (hchunks _) (hrejections _ hother)).1]
      exact hs.live j (fun h => hne (Option.some.inj h).symm) hlj'
  · obtain rfl : j = i := by
      rcases hbusy with h | h <;> rw [h] at hj
      · cases hj
      · exact (Option.some.inj hj).symm
    rw [(hlive j hlj).2]
    exact hwork hj hlj
  · rcases eq_or_ne (s.clients i).conn k with rfl | hother
    · refine hgone fun hlj => hk i hlj (hlive i hlj).2
    · rw [(congr (hchunks k) (hrejections k hother)).2]
      by_cases hdead : ∀ j, (s.clients j).Live → (s.clients j).conn ≠ k
      · exact hs.gone k hdead
      · push Not at hdead
        obtain ⟨j, hj, rfl⟩ := hdead
        refine (hs.live j (fun h => ?_) hj).maybe
        rw [Option.some.inj h] at hother
        exact hother rfl

/-- The stream of a connection without a complete frame in its buffer is oversized if the buffer
starts with a bad header. -/
theorem oversized_iff (hs : InputOk s) (hl : (s.clients i).Live)
    (hsettled : ∀ f n, frameHead cwMaxPayloadSize (s.clients i).inbuf ≠ .item f n) :
    Oversized (receivedBy (s.clients i).conn s.trace) ↔
      frameHead cwMaxPayloadSize (s.clients i).inbuf = .bad := by
  rw [Oversized, hs.parse hl, parse_of_settled hsettled]

/-- Bytes arrive: the chunk is late if the header is complete already. -/
theorem recvChunk (hs : RejectInv none s) (hl : (s.clients i).Live) (chunk : Bytes)
    (hinput : InputInv (some i) (recvChunk s i chunk)) :
    RejectInv (some i) (recvChunk s i chunk) := by
  have hunique := hs.input.numbered.unique
  have hself : (Core.recvChunk s i chunk).clients i =
      { s.clients i with inbuf := (s.clients i).inbuf ++ chunk } := Function.update_self ..
  have hother : ∀ j, j ≠ i → (Core.recvChunk s i chunk).clients j = s.clients j := fun j hj =>
    Function.update_of_ne hj ..
  have hsilent : Silent Effect.IsTurn s (Core.recvChunk s i chunk) :=
    .concat rfl (Effect.not_isTurn rfl rfl)
  have hrejections : ∀ k, rejections k (Core.recvChunk s i chunk).trace = rejections k s.trace :=
    fun k => by rw [rejections, rejections, turns_of_silent hsilent]
  have hcongr : ∀ k, (s.clients i).conn ≠ k → _ := fun k hk => congr
    (s := s) (t := Core.recvChunk s i chunk) (k := k)
    (by rw [chunksOf_recvChunk, if_neg hk, List.append_nil]) (congrArg List.length (hrejections k))
  refine ⟨hinput, fun j hj hlj => ?_, fun j hj hlj => ?_, fun k hk => ?_⟩
  · have hne : j ≠ i := fun h => hj (congrArg some h.symm)
    rw [hother j hne] at hlj ⊢
    rw [(hcongr _ fun h => hne (hunique i j hl hlj h).symm).1]
    exact hs.live j (by simp) hlj
  · obtain rfl := Option.some.inj hj
    have hlate : lateChunks (s.clients i).conn (Core.recvChunk s i chunk).trace =
        lateChunks (s.clients i).conn s.trace +
          if Oversized (receivedBy (s.clients i).conn s.trace) then 1 else 0 := by
      rw [lateChunks, chunksOf_recvChunk, if_pos rfl, late_concat, flatten_chunksOf]
      rfl
    rw [hself]
    refine ⟨?_, fun hpos => ?_⟩
    · rw [hrejections, hlate]
      exact hs.live i (by simp) hl
    · have hbad : Oversized (receivedBy (s.clients i).conn s.trace) := by
        by_contra hsmall
        rw [hlate, if_neg hsmall] at hpos
        have hlong := oversized_of_late_pos hpos
        rw [flatten_chunksOf] at hlong
        exact hsmall hlong
      exact cwFraming.bad_stable
        ((oversized_iff hs.input.input hl (hs.input.settled i (by simp) hl)).mp hbad) chunk
  · have hne : (s.clients i).conn ≠ k := by
      have hi := hk i (by rw [hself]; exact hl)
      rwa [hself] at hi
    rw [(hcongr k hne).2]
    refine hs.gone k fun j hj => ?_
    rcases eq_or_ne j i with rfl | hj'
    · exact hne
    · have hkj := hk j (by rwa [hother j hj'])
      rwa [hother j hj'] at hkj

/-- An incomplete frame is no rejection. -/
theorem incomplete (hs : RejectInv (some i) s) (hl : (s.clients i).Live)
    (hhead : frameHead cwMaxPayloadSize (s.clients i).inbuf = .more) : RejectInv none s := by
  have hinput := hs.input.incomplete hhead
  refine hs.of_work hl (.inl rfl) hinput (fun j hj => ⟨hj, rfl⟩) (fun _ => rfl) (fun _ _ => rfl)
    (fun _ _ => ?_) (fun h => by cases h) fun hdead => absurd hl hdead
  have hsmall : ¬ Oversized (receivedBy (s.clients i).conn s.trace) := by
    rw [oversized_iff hinput.input hl (hinput.settled i (by simp) hl), hhead]
    exact nofun
  rw [Rejected, if_neg hsmall]
  exact (hs.work i rfl hl).1

/-- The header is rejected once more. -/
theorem rejectHeader (hs : RejectInv (some i) s) (hl : (s.clients i).Live)
    (hhead : frameHead cwMaxPayloadSize (s.clients i).inbuf = .bad) :
    RejectInv none (rejectHeader s i) := by
  have hquiet := rejectHeader_inputUnseen hl
  have hchunks : ∀ k, chunksOf k (Core.rejectHeader s i).trace = chunksOf k s.trace :=
    chunksOf_of_silent hquiet.silent fun _ _ => trivial
  have hcount := rejections_rejectHeader hl hhead (s.clients i).conn
  rw [if_pos rfl, (hs.work i rfl hl).1] at hcount
  have hsettled : ∀ f n, frameHead cwMaxPayloadSize (s.clients i).inbuf ≠ .item f n := by
    intro f n h
    rw [hhead] at h
    cases h
  have hbad := (oversized_iff hs.input.input hl hsettled).mpr hhead
  have hdone : Rejected (s.clients i).conn (Core.rejectHeader s i).trace := by
    rw [Rejected, hcount, lateChunks, lateChunks, hchunks, ← flatten_chunksOf, hchunks,
      flatten_chunksOf, if_pos hbad]
  refine hs.of_work hl (.inl rfl) (hs.input.rejectHeader hl hhead)
    (fun j hj => ⟨(hquiet.live j hj).1, (hquiet.live j hj).2.1⟩) hchunks (fun k hk => ?_)
    (fun _ _ => hdone) (fun h => by cases h) fun _ => hdone.maybe
  rw [rejections_rejectHeader hl hhead k, if_neg hk, Nat.add_zero]

/-- A frame was handled, so no chunk was late. -/
theorem serveFrame {frame : Frame} {n : ℕ} (hs : RejectInv (some i) s) (hl : (s.clients i).Live)
    (hhead : frameHead cwMaxPayloadSize (s.clients i).inbuf = .item frame n) :
    if ((serveFrame s i frame n).2.clients i).Live then RejectInv (some i) (serveFrame s i frame n).2
    else RejectInv none (serveFrame s i frame n).2 := by
  have hinput := inputInv_rule.item s i frame n hs.input hl hhead
  have hchunks := chunksOf_serveFrame (s := s) (i := i) frame n hl
  have hrejections := rejections_serveFrame hl hhead
  obtain ⟨hcount, hlate⟩ := hs.work i rfl hl
  have hnone : lateChunks (s.clients i).conn s.trace = 0 := by
    by_contra hne
    have hbad := hlate (Nat.pos_of_ne_zero hne)
    rw [hhead] at hbad
    cases hbad
  have hlate' : lateChunks (s.clients i).conn (Core.serveFrame s i frame n).2.trace = 0 := by
    rw [lateChunks, hchunks]
    exact hnone
  have hcount' : (rejections (s.clients i).conn (Core.serveFrame s i frame n).2.trace).length =
      0 := by rw [hrejections, hcount, hnone]
  have hlive : ∀ j, ((Core.serveFrame s i frame n).2.clients j).Live →
      (s.clients j).Live ∧ ((Core.serveFrame s i frame n).2.clients j).conn = (s.clients j).conn := by
    have hquiet := (handleFrame_actions (s := s.emit (.handled (s.clients i).conn frame)) (i := i)
      frame.type frame.payload hl).inputUnseen
    intro j hj
    obtain ⟨inbuf, heq⟩ := serveFrame_clients s i frame n j
    rw [heq] at hj ⊢
    obtain ⟨hj', hconn, -⟩ := hquiet.live j hj
    exact ⟨hj', hconn⟩
  split_ifs at hinput ⊢ with hstay
  · exact hs.of_work hl (.inr rfl) hinput hlive hchunks (fun k _ => by rw [hrejections])
      (fun h => by cases h) (fun _ _ => ⟨by rw [hcount', hlate'], fun h => by omega⟩)
      fun hdead => absurd hstay hdead
  · exact hs.of_work hl (.inl rfl) hinput hlive hchunks (fun k _ => by rw [hrejections])
      (fun _ h => absurd h hstay) (fun h => by cases h)
      fun _ => ⟨by omega, fun h => by omega⟩

/-- A new connection has sent nothing. -/
theorem accept {fd : ℕ} {nonblocking : Bool} (hs : RejectInv none s) :
    RejectInv none (acceptConnection s fd nonblocking) := by
  have hinput : InputInv none (acceptConnection s fd nonblocking) := hs.input.accept
  unfold acceptConnection at hinput ⊢
  cases hfree : (freeSlot s).filter fun _ => nonblocking with
  | none => exact hs
  | some slot =>
    rw [hfree] at hinput
    have hsilent : Silent Effect.IsTurn s (occupySlot s slot fd) :=
      .occupySlot (Effect.not_isTurn rfl rfl)
    have hchunks : ∀ k, chunksOf k (occupySlot s slot fd).trace = chunksOf k s.trace := by
      intro k
      rw [chunksOf, occupySlot, Server.emit_trace, List.flatMap_append]
      exact List.append_nil _
    have hrejections : ∀ k, rejections k (occupySlot s slot fd).trace = rejections k s.trace :=
      fun k => by rw [rejections, rejections, turns_of_silent hsilent]
    have hcongr : ∀ k, _ := fun k => congr (hchunks k) (congrArg List.length (hrejections k))
    have hself : ((occupySlot s slot fd).clients slot).conn = s.stats.totalConnections + 1 := by
      simp [occupySlot]
    have hother : ∀ j, j ≠ slot → (occupySlot s slot fd).clients j = s.clients j := fun j hj =>
      Function.update_of_ne hj ..
    have hdead : ∀ k, (∀ j, ((occupySlot s slot fd).clients j).Live →
        ((occupySlot s slot fd).clients j).conn ≠ k) → ¬ (s.clients slot).Live →
        ∀ j, (s.clients j).Live → (s.clients j).conn ≠ k := by
      intro k hk hfreed j hj
      have hne : j ≠ slot := fun h => hfreed (h ▸ hj)
      have hkj := hk j (by rwa [hother j hne])
      rwa [hother j hne] at hkj
    have hslot := List.find?_some (Option.filter_eq_some_iff.mp hfree).1
    refine ⟨hinput, fun j _ hj => ?_, fun j hj => (by cases hj), fun k hk => ?_⟩
    · rw [(hcongr _).1]
      rcases eq_or_ne j slot with rfl | hne
      · have hfresh := hs.input.numbered.not_mentions (Nat.lt_succ_self s.stats.totalConnections)
        have hnothing : receivedBy (s.stats.totalConnections + 1) s.trace = [] :=
          flatMap_eq_nil_of_not_mentions (fun e => Effect.receivedBy_of_not_mentions) hfresh
        have hnochunk : chunksOf (s.stats.totalConnections + 1) s.trace = [] := by
          refine flatMap_eq_nil_of_not_mentions (fun e he => ?_) hfresh
          cases e <;> first | rfl | exact if_neg he
        have hnoturn : rejections (s.stats.totalConnections + 1) s.trace = [] := by
          refine List.filter_eq_nil_iff.mpr fun turn hturn hconn => ?_
          obtain ⟨e, he, -, hmentions⟩ := exists_mentions_of_mem_turns hturn
          have hconn' := of_decide_eq_true hconn
          rw [hconn'.1] at hmentions
          exact hfresh e he hmentions
        rw [hself, Rejected, hnothing, lateChunks, hnochunk, hnoturn]
        rfl
      · rw [hother j hne] at hj ⊢
        exact hs.live j (by simp) hj
    · rw [(hcongr k).2]
      exact hs.gone k (hdead k hk (of_decide_eq_true hslot))

end RejectInv

section Counter

variable {s t : Server} {i : Slot}

theorem disconnectClient_malformedFrames (s : Server) (i : Slot) (r : Reason) :
    (disconnectClient s i r).stats.malformedFrames = s.stats.malformedFrames := by
  unfold disconnectClient resetClient
  simp only
  split_ifs <;> rfl

theorem enqueueOrDisconnect_malformedFrames (s : Server) (i : Slot) (type : ServerMsgType)
    (payload : Bytes) :
    (enqueueOrDisconnect s i type payload).stats.malformedFrames = s.stats.malformedFrames := by
  by_cases h : Accepts s i payload
  · rw [enqueueOrDisconnect_of_accepts h]
    rfl
  · obtain ⟨heap, hq⟩ := enqueueOrDisconnect_of_not_accepts type h
    rw [hq]
    exact disconnectClient_malformedFrames ..

/-- A loop over the slots whose turns keep the counter. -/
theorem foldl_malformedFrames {body : Server → Slot → Server}
    (hbody : ∀ s i, (body s i).stats.malformedFrames = s.stats.malformedFrames) (l : List Slot)
    (s : Server) : (l.foldl body s).stats.malformedFrames = s.stats.malformedFrames := by
  induction l generalizing s with
  | nil => rfl
  | cons i l ih => exact (ih (body s i)).trans (hbody s i)

theorem broadcastSystem_malformedFrames (s : Server) (i : Slot) (text : Bytes) :
    (broadcastSystemToActiveChannel s i text).stats.malformedFrames = s.stats.malformedFrames := by
  unfold broadcastSystemToActiveChannel
  split
  · rfl
  · refine foldl_malformedFrames (fun s j => ?_) slots s
    unfold systemTurn
    split_ifs
    · exact enqueueOrDisconnect_malformedFrames ..
    · rfl

theorem chatLoop_malformedFrames (s : Server) (idx : ℕ) (payload : Bytes) :
    (chatLoop s idx payload).stats.malformedFrames = s.stats.malformedFrames := by
  rw [chatLoop]
  refine foldl_malformedFrames (fun s j => ?_) slots s
  unfold chatTurn
  split_ifs
  · exact enqueueOrDisconnect_malformedFrames ..
  · rfl

/-- No handler counts a malformed frame. -/
theorem Ending.malformedFrames {frame : Frame} (h : Ending s i frame t) :
    t.stats.malformedFrames = s.stats.malformedFrames := by
  cases h with
  | refused | registered _ _ | switched | left | queried =>
    exact enqueueOrDisconnect_malformedFrames ..
  | renamed _ _ =>
    rw [broadcastSystem_malformedFrames]
    exact enqueueOrDisconnect_malformedFrames ..
  | joined _ _ _ hensure =>
    refine (enqueueOrDisconnect_malformedFrames ..).trans ?_
    unfold ensureChannel at hensure
    split at hensure
    · obtain ⟨-, rfl⟩ := Prod.mk.inj hensure
      rfl
    · split_ifs at hensure
      · obtain ⟨hnone, -⟩ := Prod.mk.inj hensure
        cases hnone
      · obtain ⟨-, rfl⟩ := Prod.mk.inj hensure
        rfl
  | said _ =>
    unfold chatSent
    simp only [Server.setStats_stats, chatLoop_malformedFrames]
    rfl
  | sentDm _ _ =>
    exact (enqueueOrDisconnect_malformedFrames ..).trans (enqueueOrDisconnect_malformedFrames ..)
  | lostDm _ _ => exact enqueueOrDisconnect_malformedFrames ..
  | quit _ => exact disconnectClient_malformedFrames ..

end Counter

/-! ## Every run -/

/-- **The counter counts the rejections**, each of which enqueued its `ERROR` or found no room. -/
structure RejectionsOk (s : Server) : Prop where
  count : s.stats.malformedFrames =
    ((turns s.trace).filter fun turn => turn.request = none).length
  output : ∀ turn ∈ turns s.trace, turn.request = none →
    turn.output = [(turn.conn, malformedFrame)] ∨
      turn.output = [] ∧ .closed turn.conn .queueOverflow ∈ s.trace

/-- A step that begins no turn leaves the counter alone, and a turn counts a rejection. -/
theorem Step.malformedFrames {s t : Server} (hr : Reachable s) (h : Step s t) :
    Silent Effect.IsTurn s t ∧ t.stats.malformedFrames = s.stats.malformedFrames ∨
      ∃ i turn, TakesTurn s t i turn ∧ t.stats.malformedFrames = s.stats.malformedFrames +
        if turn.request = none then 1 else 0 := by
  have hc := channelsOk hr.moveReachable
  have hv := namesOk hr.moveReachable
  cases h with
  | accept _ =>
    unfold acceptConnection
    split
    · exact .inl ⟨.of_eq rfl, rfl⟩
    · exact .inl ⟨.occupySlot (Effect.not_isTurn rfl rfl), rfl⟩
  | recv _ _ _ => exact .inl ⟨.concat rfl (Effect.not_isTurn rfl rfl), rfl⟩
  | @drain i hl =>
    rcases drainTurn_quiet_or_turn hl with heq | ⟨turn, hturn⟩
    · rw [heq]
      exact .inl ⟨.of_eq rfl, rfl⟩
    · refine .inr ⟨i, turn, hturn, ?_⟩
      have hrequest := hturn.request
      cases hreq : turn.request with
      | none =>
        rw [hreq] at hrequest
        rw [drainTurn_eq, hrequest, if_pos rfl]
        exact enqueueOrDisconnect_malformedFrames ..
      | some frame =>
        rw [hreq] at hrequest
        obtain ⟨n, hhead⟩ := hrequest
        rw [drainTurn_eq, hhead, if_neg (Option.some_ne_none _), Nat.add_zero]
        have hending := (handleFrame_ending (s := s.emit (.handled (s.clients i).conn frame))
          (hc.emit _) (hv.emit _) i frame).malformedFrames
        unfold serveFrame
        simp only
        split_ifs
        · exact hending
        · exact hending
  | send _ hout _ _ =>
    exact .inl ⟨.concat (takeSent_trace hout) (Effect.not_isTurn rfl rfl), by rw [takeSent_stats]⟩
  | disconnect hl =>
    exact .inl ⟨.concat (disconnectClient_trace _ _ _ hl) (Effect.not_isTurn rfl rfl),
      disconnectClient_malformedFrames ..⟩

/-- What a turn that rejects a header enqueues. -/
theorem TakesTurn.rejection_output {s t : Server} {i : Slot} {turn : Turn}
    (h : TakesTurn s t i turn) (hnone : turn.request = none) :
    turn.output = [(turn.conn, malformedFrame)] ∨
      turn.output = [] ∧ .closed turn.conn .queueOverflow ∈ t.trace := by
  have hhead := h.request
  rw [hnone] at hhead
  have ht : t = rejectHeader s i := by rw [h.step, drainTurn_eq, hhead]
  obtain ⟨e, es, htrace, -, -, houtput⟩ := h.trace
  rw [h.conn, ← houtput]
  rcases rejectHeader_trace h.live with ⟨hnew, -⟩ | ⟨hnew, -⟩
  · rw [← ht, htrace] at hnew
    obtain ⟨-, rfl⟩ := List.cons.inj (List.append_cancel_left hnew)
    exact .inl rfl
  · have hclosed : Effect.closed (s.clients i).conn .queueOverflow ∈ t.trace := by
      rw [ht, hnew]
      simp
    rw [← ht, htrace] at hnew
    obtain ⟨-, rfl⟩ := List.cons.inj (List.append_cancel_left hnew)
    exact .inr ⟨rfl, hclosed⟩

theorem RejectionsOk.step {s t : Server} (hs : RejectionsOk s) (hr : Reachable s)
    (h : Step s t) : RejectionsOk t := by
  have hold : ∀ turn ∈ turns s.trace, turn.request = none →
      turn.output = [(turn.conn, malformedFrame)] ∨
        turn.output = [] ∧ .closed turn.conn .queueOverflow ∈ t.trace := fun turn hturn hnone =>
    (hs.output turn hturn hnone).imp_right fun ⟨hout, hmem⟩ => ⟨hout, h.trace_prefix.subset hmem⟩
  rcases h.malformedFrames hr with ⟨hsilent, hcount⟩ | ⟨i, turn, hturn, hcount⟩
  · have hturns := turns_of_silent hsilent
    refine ⟨by rw [hcount, hturns]; exact hs.count, ?_⟩
    rw [hturns]
    exact hold
  · have hturns := hturn.turns_eq
    refine ⟨?_, ?_⟩
    · rw [hcount, hturns, List.filter_append, List.length_append, List.filter_singleton, hs.count]
      cases turn.request <;> rfl
    · rw [hturns]
      intro turn' hmem hnone
      rcases List.mem_append.mp hmem with hmem | hmem
      · exact hold turn' hmem hnone
      · rw [List.mem_singleton.mp hmem] at hnone ⊢
        exact hturn.rejection_output hnone

theorem rejectionsOk {s : Server} (h : Reachable s) : RejectionsOk s := by
  refine Transition.Reachable.invariant ?_ (fun _ _ hr hs hst => hs.step hr hst) h
  rintro _ ⟨maxQueueBytes, heap, -, rfl⟩
  exact ⟨rfl, nofun⟩

end Core
end ChannelWire
