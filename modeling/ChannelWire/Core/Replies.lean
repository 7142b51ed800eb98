import ChannelWire.Core.Answers
import ChannelWire.Core.Turns

/-!
# Replies and their requests

A reply carries no number: which request it answers follows from its place in the stream alone.
`answers k` lists the replies enqueued to connection `k` together with the requests in whose
turns they were enqueued; the replies in it are all that `k` gets (`TurnsOk.answers_reply`).

Direct messages are the requests a peer can count on.  Only they are answered with
`direct message sent`, and their only other answer is an `ERROR` (`TurnOk`); and a direct message
that is not `DmRefused` has one answer (`TakesTurn.one_reply`).
-/

namespace ChannelWire
namespace Core

open LinkedQueue

/-- The frame answers a request. -/
def isReply (frame : Frame) : Bool := (ServerMsgType.ofByte frame.type).any ServerMsgType.isReply

/-- The request is a direct message. -/
def isDm (request : Option Frame) : Bool := request.any fun f => f.type == ClientMsgType.dm.toByte

/-- The acknowledgement of a direct message. -/
def okSent : Frame := ⟨ServerMsgType.ok.toByte, sentText⟩

/-- A reply with the request it answers; there is none for a rejected header. -/
structure Answer where
  request : Option Frame
  reply : Frame
  deriving DecidableEq

/-- The replies of a turn to the connection whose turn it is. -/
def Turn.replies (turn : Turn) : List Frame := (turn.outputTo turn.conn).filter isReply

def Turn.answers (turn : Turn) : List Answer := turn.replies.map fun reply => ⟨turn.request, reply⟩

/-- The answers connection `k` gets, in their order. -/
def answers (k : ℕ) (trace : List Effect) : List Answer :=
  (turns trace).flatMap fun turn => if turn.conn = k then turn.answers else []

@[simp] theorem isReply_make (type : ServerMsgType) (payload : Bytes) :
    isReply ⟨type.toByte, payload⟩ = type.isReply := by
  rw [isReply, ServerMsgType.ofByte_toByte]
  rfl

/-! ## What a turn replies -/

/-- **Replies go to the client whose turn it is, and only a direct message is acknowledged as
one.** -/
structure TurnOk (turn : Turn) : Prop where
  own : ∀ o ∈ turn.output, isReply o.2 = true → o.1 = turn.conn
  sent : ∀ o ∈ turn.output, o.2 = okSent → isDm turn.request = true
  dm : isDm turn.request = true → ∀ o ∈ turn.output, isReply o.2 = true →
    o.2 = okSent ∨ o.2.type = ServerMsgType.error.toByte

theorem isDm_iff {turn : Turn} (s : Server) (i : Slot) :
    isDm turn.request = true ↔ (requestOf turn s i).type = ClientMsgType.dm.toByte := by
  cases hreq : turn.request with
  | none =>
    refine iff_of_false (by decide) fun h => ?_
    rw [requestOf, hreq] at h
    exact absurd h (show (0 : UInt8) ≠ 6 by decide)
  | some frame =>
    rw [requestOf, hreq]
    exact beq_iff_eq

theorem TakesTurn.turnOk {s t : Server} {i : Slot} {turn : Turn} (h : TakesTurn s t i turn) :
    TurnOk turn := by
  refine ⟨fun o ho hreply => ?_, fun o ho hsent => ?_, fun hdm o ho hreply => ?_⟩
  · obtain ⟨j, type, payload, -, hconn, hframe, hemits⟩ := h.sends o ho
    have hj : j = i := by
      rw [hframe, isReply_make] at hreply
      cases type with
      | chat | dmRecv | system => cases hreply
      | error => exact hemits
      | ok | whoResp | listResp | statsResp => exact hemits.1
    rw [← hconn, hj, h.conn]
  · obtain ⟨j, type, payload, -, -, hframe, hemits⟩ := h.sends o ho
    obtain ⟨htype, hpayload⟩ := Frame.mk.inj (hframe.symm.trans hsent)
    obtain rfl := ServerMsgType.toByte_inj.mp htype
    obtain ⟨-, t', ht', hiff⟩ := hemits
    obtain rfl := hiff.mp hpayload
    exact (isDm_iff s i).mpr ht'
  · obtain ⟨j, type, payload, -, -, hframe, hemits⟩ := h.sends o ho
    have htype := (isDm_iff s i).mp hdm
    rw [hframe, isReply_make] at hreply
    rw [hframe]
    cases type with
    | chat | dmRecv | system => cases hreply
    | error => exact .inr rfl
    | ok =>
      obtain ⟨-, t', ht', hiff⟩ := hemits
      obtain rfl := ClientMsgType.toByte_inj.mp (htype.symm.trans ht')
      rw [hiff.mpr rfl]
      exact .inl rfl
    | whoResp | listResp | statsResp => exact absurd htype hemits.2

/-! ## Every run -/

/-- Everything that is enqueued and handled belongs to a turn. -/
structure TurnsOk (s : Server) : Prop where
  turn : ∀ turn ∈ turns s.trace, TurnOk turn
  enqueued : ∀ k, enqueuedTo k s.trace = (turns s.trace).flatMap (Turn.outputTo k)
  handled : ∀ k, handledBy k s.trace =
    (turns s.trace).flatMap fun turn => if turn.conn = k then turn.request.toList else []

theorem enqueuedTo_of_silent {s t : Server} (h : Silent Effect.IsTurn s t) (k : ℕ) :
    enqueuedTo k t.trace = enqueuedTo k s.trace := by
  refine h.flatMap_eq fun e he => ?_
  rw [Effect.enqueuedTo_eq, not_not.mp fun hne => he (.inr hne), List.filterMap_nil]

theorem handledBy_of_silent {s t : Server} (h : Silent Effect.IsTurn s t) (k : ℕ) :
    handledBy k t.trace = handledBy k s.trace :=
  h.flatMap_eq fun _ he => Effect.handledBy_of_begins (not_not.mp fun hne => he (.inl hne))

theorem TurnsOk.step {s t : Server} (hs : TurnsOk s) (h : Step s t) : TurnsOk t := by
  rcases h.quiet_or_turn with hquiet | ⟨i, turn, hturn⟩
  · have hturns := turns_of_silent hquiet
    constructor
    · rw [hturns]
      exact hs.turn
    · intro k
      rw [hturns, enqueuedTo_of_silent hquiet]
      exact hs.enqueued k
    · intro k
      rw [hturns, handledBy_of_silent hquiet]
      exact hs.handled k
  · have hturns := hturn.turns_eq
    constructor
    · rw [hturns]
      intro turn' hmem
      rcases List.mem_append.mp hmem with hmem | hmem
      · exact hs.turn turn' hmem
      · rw [List.mem_singleton.mp hmem]
        exact hturn.turnOk
    · intro k
      rw [hturns, hturn.enqueuedTo_eq, hs.enqueued k, List.flatMap_append, List.flatMap_singleton]
    · intro k
      rw [hturns, hturn.handledBy_eq, hs.handled k, List.flatMap_append, List.flatMap_singleton]

theorem turnsOk {s : Server} (h : Reachable s) : TurnsOk s := by
  refine Transition.Reachable.invariant ?_ (fun _ _ _ hs hst => hs.step hst) h
  rintro _ ⟨maxQueueBytes, heap, -, rfl⟩
  exact ⟨nofun, fun _ => rfl, fun _ => rfl⟩

theorem TurnsOk.origins_frame {s : Server} (hs : TurnsOk s) (k : ℕ) :
    (origins k s.trace).map Prod.snd = enqueuedTo k s.trace := by
  rw [hs.enqueued, origins, List.map_flatMap]
  refine List.flatMap_congr fun turn _ => ?_
  rw [List.map_map]
  exact List.map_id _

/-- **The replies a connection gets are the answers to its requests.** -/
theorem TurnsOk.answers_reply {s : Server} (hs : TurnsOk s) (k : ℕ) :
    (answers k s.trace).map Answer.reply = (enqueuedTo k s.trace).filter isReply := by
  rw [hs.enqueued, answers, List.map_flatMap, List.filter_flatMap]
  refine List.flatMap_congr fun turn hmem => ?_
  by_cases hk : turn.conn = k
  · subst hk
    rw [if_pos rfl, Turn.answers, List.map_map]
    exact List.map_id _
  · rw [if_neg hk, List.map_nil, eq_comm, List.filter_eq_nil_iff]
    intro frame hframe hreply
    exact hk ((hs.turn turn hmem).own _ (mem_outputTo.mp hframe) hreply).symm

theorem TurnsOk.replies_isPrefix {s : Server} (hs : TurnsOk s) {k : ℕ} {frames : List Frame}
    (h : frames <+: enqueuedTo k s.trace) :
    frames.filter isReply <+: (answers k s.trace).map Answer.reply := by
  rw [hs.answers_reply]
  exact h.filter _

theorem TakesTurn.answers_eq {s t : Server} {i : Slot} {turn : Turn} (h : TakesTurn s t i turn)
    (k : ℕ) : answers k t.trace =
      answers k s.trace ++ if turn.conn = k then turn.answers else [] := by
  rw [answers, h.turns_eq, List.flatMap_append, List.flatMap_singleton]
  rfl

theorem answers_of_silent {s t : Server} (h : Silent Effect.IsTurn s t) (k : ℕ) :
    answers k t.trace = answers k s.trace := by
  rw [answers, turns_of_silent h]
  rfl

/-- What is known of the answers to direct messages. -/
theorem TurnsOk.of_mem_answers {s : Server} (hs : TurnsOk s) {k : ℕ} {a : Answer}
    (h : a ∈ answers k s.trace) :
    (a.reply = okSent → isDm a.request = true) ∧
      (isDm a.request = true → a.reply = okSent ∨ a.reply.type = ServerMsgType.error.toByte) := by
  obtain ⟨turn, hturn, ha⟩ := List.mem_flatMap.mp h
  split_ifs at ha with hk
  · obtain ⟨reply, hreply, rfl⟩ := List.mem_map.mp ha
    obtain ⟨hmem, hisReply⟩ := List.mem_filter.mp hreply
    have hok := hs.turn turn hturn
    exact ⟨hok.sent _ (mem_outputTo.mp hmem),
      fun hdm => hok.dm hdm _ (mem_outputTo.mp hmem) hisReply⟩
  · cases ha

/-- **Answers stay.** -/
theorem Step.answers_prefix {s t : Server} (h : Step s t) (k : ℕ) :
    answers k s.trace <+: answers k t.trace := by
  rcases h.quiet_or_turn with hquiet | ⟨i, turn, hturn⟩
  · exact ⟨[], by rw [answers_of_silent hquiet, List.append_nil]⟩
  · rw [hturn.answers_eq]
    exact List.prefix_append ..

/-! ## Direct messages that are all replied to -/

/-- The answers connection `k` gets to its direct messages. -/
def dmAnswers (k : ℕ) (trace : List Effect) : List Answer :=
  (answers k trace).filter fun a => isDm a.request

/-- Every direct message of connection `k` got one reply. -/
def DmsReplied (k : ℕ) (trace : List Effect) : Prop :=
  ∀ turn ∈ turns trace, turn.conn = k → isDm turn.request = true → turn.replies.length = 1

/-- **Then its direct messages and the answers to them correspond**, one to one and in order. -/
theorem TurnsOk.dmAnswers_request {s : Server} {k : ℕ} (hs : TurnsOk s)
    (h : DmsReplied k s.trace) : (dmAnswers k s.trace).map Answer.request =
      ((handledBy k s.trace).map some).filter isDm := by
  rw [hs.handled, dmAnswers, answers, List.filter_flatMap, List.map_flatMap, List.map_flatMap,
    List.filter_flatMap]
  refine List.flatMap_congr fun turn hturn => ?_
  by_cases hk : turn.conn = k
  · rw [if_pos hk, if_pos hk, Turn.answers, List.filter_map, List.map_map]
    cases hdm : isDm turn.request with
    | true =>
      obtain ⟨reply, hreply⟩ := List.length_eq_one_iff.mp (h turn hturn hk hdm)
      obtain ⟨f, hf⟩ : ∃ f, turn.request = some f := by
        cases hreq : turn.request with
        | none =>
          rw [hreq] at hdm
          cases hdm
        | some f => exact ⟨f, rfl⟩
      rw [hf] at hdm ⊢
      simp [hreply, hdm]
    | false =>
      have hnone : (turn.request.toList.map some).filter isDm = [] := by
        cases hreq : turn.request with
        | none => rfl
        | some f =>
          rw [hreq] at hdm
          exact List.filter_eq_nil_iff.mpr fun r hr => by
            rw [List.mem_singleton.mp hr, hdm]
            exact Bool.false_ne_true
      rw [hnone, List.map_eq_nil_iff, List.filter_eq_nil_iff]
      intro reply _ hreply
      rw [Function.comp_apply, hdm] at hreply
      cases hreply
  · rw [if_neg hk, if_neg hk]
    rfl

/-! ## One reply for a direct message -/

/-- The queued form of a frame. -/
def OutFrame.ofFrame (frame : Frame) : OutFrame :=
  ⟨cwWriteHeader frame.type frame.payload.length ++ frame.payload,
    cwFrameHeaderSize + frame.payload.length, 0⟩

theorem isAnswer_ofFrame (frame : Frame) :
    isAnswer ClientMsgType.dm.toByte (.ofFrame frame) = isReply frame := by
  have hsay : (ClientMsgType.dm.toByte == ClientMsgType.say.toByte) = false := rfl
  have htype : (OutFrame.ofFrame frame).type = frame.type := rfl
  rw [isAnswer, hsay, Bool.false_and, Bool.or_false, htype, Bool.eq_iff_iff, isReply,
    List.any_eq_true]
  constructor
  · rintro ⟨type, hmem, htype⟩
    rw [← beq_iff_eq.mp htype, ServerMsgType.ofByte_toByte]
    simp only [List.mem_cons, List.not_mem_nil, or_false] at hmem
    rcases hmem with rfl | rfl | rfl | rfl | rfl <;> rfl
  · cases htype : ServerMsgType.ofByte frame.type with
    | none => exact fun h => absurd h Bool.false_ne_true
    | some type =>
      intro hreply
      refine ⟨type, ?_, beq_iff_eq.mpr (ServerMsgType.ofByte_eq_some.mp htype).symm⟩
      cases type <;> first | decide | cases hreply

/-- The queue of a live client grows by the frames enqueued to it. -/
def Appends (i : Slot) (s t : Server) : Prop :=
  ∃ frames, (t.clients i).out.toList = (s.clients i).out.toList ++ frames.map .ofFrame ∧
    enqueuedTo (s.clients i).conn t.trace = enqueuedTo (s.clients i).conn s.trace ++ frames

theorem Action.appends {r : Request} {s t : Server} {i : Slot} (h : Action r s t)
    (hn : Numbered s) (hl : (t.clients i).Live) : Appends i s t := by
  rcases h.push_or_unseen with ⟨j, type, payload, heap, rfl, -, hlj, -⟩ | hquiet
  · rw [Appends, pushFrame_clients, pushFrame_trace, enqueuedTo, List.flatMap_append,
      List.flatMap_singleton]
    rcases eq_or_ne i j with rfl | hne
    · refine ⟨[⟨type.toByte, payload⟩], ?_, ?_⟩
      · rw [Function.update_self]
        exact Queue.toList_push ..
      · show _ ++ (if (s.clients i).conn = (s.clients i).conn then _ else _) = _
        rw [if_pos rfl]
        rfl
    · have hli : (s.clients i).Live := by
        rw [pushFrame_clients, Function.update_of_ne hne] at hl
        exact hl
      have hconn : (s.clients j).conn ≠ (s.clients i).conn := fun heq =>
        hne (hn.unique j i hlj hli heq).symm
      refine ⟨[], ?_, ?_⟩
      · rw [Function.update_of_ne hne]
        exact (List.append_nil _).symm
      · show _ ++ (if (s.clients j).conn = (s.clients i).conn then _ else _) = _
        rw [if_neg hconn]
        rfl
  · obtain ⟨-, -, hout⟩ := hquiet.live i hl
    refine ⟨[], by rw [hout, List.map_nil, List.append_nil], ?_⟩
    rw [List.append_nil]
    exact enqueuedTo_of_silent (hquiet.silent.mono fun _ => .inl) _

theorem Actions.appends {r : Request} {s t : Server} {i : Slot} (h : Actions r s t)
    (hn : Numbered s) (hl : (t.clients i).Live) : Appends i s t := by
  induction h using Relation.ReflTransGen.head_induction_on with
  | refl => exact ⟨[], (List.append_nil _).symm, (List.append_nil _).symm⟩
  | head hab hbt ih =>
    have hb := hab.numbered hn
    obtain ⟨es, hsaid⟩ := Actions.said hbt
    obtain ⟨hlb, -⟩ := hsaid.live i hl
    obtain ⟨es', hsaid'⟩ := hab.said
    obtain ⟨-, hconn⟩ := hsaid'.live i hlb
    obtain ⟨frames, hout, henq⟩ := hab.appends hn hlb
    obtain ⟨frames', hout', henq'⟩ := ih hb
    refine ⟨frames ++ frames', ?_, ?_⟩
    · rw [hout', hout, List.append_assoc, List.map_append]
    · rw [hconn] at henq'
      rw [henq', henq, List.append_assoc]

/-- **A direct message that is not refused has one reply**, if its sender stays connected. -/
theorem TakesTurn.one_reply {s t : Server} {i : Slot} {turn : Turn} {frame : Frame}
    (h : TakesTurn s t i turn) (hs : Reachable s) (hreq : turn.request = some frame)
    (hdm : frame.type = ClientMsgType.dm.toByte) (hl : (t.clients i).Live)
    (hroom : ¬ DmRefused s i frame.type frame.payload) : turn.replies.length = 1 := by
  obtain ⟨n, hhead⟩ : ∃ n, frameHead cwMaxPayloadSize (s.clients i).inbuf = .item frame n := by
    have hrequest := h.request
    rwa [hreq] at hrequest
  have hn := numbered hs.moveReachable
  have hc := channelsOk hs.moveReachable
  have hv := namesOk hs.moveReachable
  let u := s.emit (.handled (s.clients i).conn frame)
  have ht : t = (serveFrame s i frame n).2 := by rw [h.step, drainTurn_eq, hhead]
  -- the client is live when the handler returns, and its input buffer is all that changes after
  have hserve : (((handleFrame u i frame.type frame.payload).clients i).Live) ∧
      t.trace = (handleFrame u i frame.type frame.payload).trace := by
    rw [ht, serveFrame_trace]
    refine ⟨?_, rfl⟩
    rw [ht] at hl
    unfold serveFrame at hl
    simp only at hl
    split_ifs at hl with hlive
    · exact hlive
    · exact hl
  obtain ⟨hlive, htrace⟩ := hserve
  have hnu : Numbered u := (Move.handle h.live).numbered hn
  have hquit : frame.type ≠ ClientMsgType.quit.toByte := by rw [hdm]; decide
  have hanswered := (handleFrame_answered_iff hnu (hc.emit _) (hv.emit _) h.live hquit).mpr hroom
  obtain ⟨new, hnew, hcount⟩ := hanswered hlive
  obtain ⟨frames, hout, henq⟩ := Actions.appends
    (handleFrame_actions (s := u) frame.type frame.payload h.live) hnu hlive
  have hframes : turn.outputTo turn.conn = frames := by
    have hturn := h.enqueuedTo_eq turn.conn
    have hemit : enqueuedTo (s.clients i).conn u.trace = enqueuedTo (s.clients i).conn s.trace := by
      rw [enqueuedTo, Server.emit_trace, List.flatMap_append]
      exact List.append_nil _
    have hconn : (u.clients i).conn = (s.clients i).conn := rfl
    rw [hconn, hemit] at henq
    rw [htrace, h.conn, henq] at hturn
    rw [h.conn]
    exact (List.append_cancel_left hturn).symm
  rw [hout] at hnew
  rw [← List.append_cancel_left hnew, List.countP_map] at hcount
  rw [Turn.replies, hframes, ← List.countP_eq_length_filter, ← hcount]
  exact List.countP_congr fun f _ => by rw [Function.comp_apply, hdm, isAnswer_ofFrame]

/-- The step handles no direct message of connection `k` that is `DmRefused`. -/
def RefusesNoDm (k : ℕ) (s t : Server) : Prop :=
  ∀ i frame n, (s.clients i).Live → (s.clients i).conn = k →
    frameHead cwMaxPayloadSize (s.clients i).inbuf = .item frame n → t = (drainTurn s i).2 →
    ¬ DmRefused s i frame.type frame.payload

theorem DmsReplied.step {s t : Server} {k : ℕ} {j : Slot} (hdms : DmsReplied k s.trace)
    (hs : Reachable s) (h : Step s t) (hj : (t.clients j).Live) (hk : (t.clients j).conn = k)
    (hroom : RefusesNoDm k s t) : DmsReplied k t.trace := by
  rcases h.quiet_or_turn with hquiet | ⟨i, turn, hturn⟩
  · rw [DmsReplied, turns_of_silent hquiet]
    exact hdms
  · rw [DmsReplied, hturn.turns_eq]
    intro turn' hmem hconn hdm
    rcases List.mem_append.mp hmem with hmem | hmem
    · exact hdms turn' hmem hconn hdm
    · obtain rfl := List.mem_singleton.mp hmem
      obtain ⟨hlj, hconnj⟩ := hturn.after j hj
      have hconni : (s.clients i).conn = k := hturn.conn.symm.trans hconn
      obtain rfl : i = j := (numbered (Reachable.moveReachable hs)).unique i j hturn.live hlj
        (hconni.trans (hk.symm.trans hconnj))
      cases hreq : turn'.request with
      | none =>
        rw [hreq] at hdm
        cases hdm
      | some frame =>
        obtain ⟨n, hhead⟩ : ∃ n, frameHead cwMaxPayloadSize (s.clients i).inbuf = .item frame n := by
          have hrequest := hturn.request
          rwa [hreq] at hrequest
        rw [hreq] at hdm
        exact hturn.one_reply hs hreq (beq_iff_eq.mp hdm) hj
          (hroom i frame n hturn.live hconni hhead hturn.step)

end Core
end ChannelWire
