import ChannelWire.Core.Echoes

/-!
# Direct messages and their turns

`outputsTo k` lists the frames enqueued to connection `k`, each with the number of its turn.  A
turn that handles a direct message says one of three things: nothing, if the addressee has no room;
the `DM_RECV`, if the sender has no room for what follows; or the `DM_RECV` and then the
acknowledgement (`TakesTurn.dm_output`).  No other turn says either of them.

So the number of a turn tells a direct message from all others, and a frame that is read belongs to
one of them.  If all direct messages of a connection are acknowledged, the acknowledgements it gets
are those of its direct messages, one each and in their order (`dm_of_ack`).
-/

namespace ChannelWire
namespace Core

open Labelling

/-- The frames enqueued to connection `k`, with the numbers of their turns. -/
def outputsTo (k : ℕ) (trace : List Effect) : List (Frame × ℕ) :=
  labelled (Turn.outputTo k) (turns trace)

/-- The frame is a `DM_RECV`. -/
def isDmRecv (frame : Frame) : Bool := frame.type == ServerMsgType.dmRecv.toByte

/-- The frame acknowledges a direct message. -/
def isAck (frame : Frame) : Bool := frame = okSent

/-- The direct messages of connection `k` that were handled, with the numbers of their turns. -/
def dmsBy (k : ℕ) (trace : List Effect) : List (Frame × ℕ) :=
  labelled (fun turn : Turn => if turn.conn = k then
    turn.request.toList.filter fun f => isDm (some f) else []) (turns trace)

/-- Every direct message of connection `k` is answered, and nothing is refused to it. -/
def Answered (k : ℕ) (trace : List Effect) : Prop :=
  ∀ turn ∈ turns trace, turn.conn = k →
    (∀ frame ∈ turn.replies, frame.type ≠ ServerMsgType.error.toByte) ∧
    (isDm turn.request = true → turn.replies ≠ [])

instance (k : ℕ) (trace : List Effect) : Decidable (Answered k trace) := by
  unfold Answered
  infer_instance

variable {s t : Server} {i : Slot} {k n : ℕ} {turn : Turn} {frame : Frame}

theorem isDmRecv_iff : isDmRecv frame = true ↔ frame.type = ServerMsgType.dmRecv.toByte :=
  beq_iff_eq

theorem isAck_iff : isAck frame = true ↔ frame = okSent := decide_eq_true_iff

/-! ## What is enqueued -/

theorem output_of_accepts (type : ServerMsgType) {payload : Bytes} (h : Accepts s i payload) :
    ∃ es, (enqueueOrDisconnect s i type payload).trace = s.trace ++ es ∧
      es.flatMap Effect.output = [((s.clients i).conn, ⟨type.toByte, payload⟩)] := by
  rw [enqueueOrDisconnect_of_accepts h]
  exact ⟨_, pushFrame_trace .., rfl⟩

theorem output_of_not_accepts (type : ServerMsgType) {payload : Bytes}
    (h : ¬ Accepts s i payload) : ∃ es, (enqueueOrDisconnect s i type payload).trace =
      s.trace ++ es ∧ es.flatMap Effect.output = [] := by
  obtain ⟨es, htrace, hes⟩ := Enqueues.enqueue i type payload (s := s)
  refine ⟨es, htrace, List.flatMap_eq_nil_iff.mpr fun e he => ?_⟩
  cases e with
  | enqueued c frame => exact absurd (hes c frame he).1 h
  | _ => rfl

/-- A frame is enqueued, or it is not. -/
theorem output_enqueue (s : Server) (i : Slot) (type : ServerMsgType) (payload : Bytes) :
    ∃ es, (enqueueOrDisconnect s i type payload).trace = s.trace ++ es ∧
      (es.flatMap Effect.output = [] ∨
        es.flatMap Effect.output = [((s.clients i).conn, ⟨type.toByte, payload⟩)]) := by
  by_cases h : Accepts s i payload
  · obtain ⟨es, htrace, hes⟩ := output_of_accepts type h
    exact ⟨es, htrace, .inr hes⟩
  · obtain ⟨es, htrace, hes⟩ := output_of_not_accepts type h
    exact ⟨es, htrace, .inl hes⟩

theorem flatMap_recorded {es : List Effect} (h : t.trace = s.trace ++ es) :
    (recorded s t).flatMap Effect.output = es.flatMap Effect.output := by
  rw [recorded, h, List.drop_left]

/-- A direct message that is delivered is acknowledged, if there is room for that. -/
theorem output_sentDm {target : Slot} {payload : Bytes} (h : Accepts s target payload) :
    ∃ es c, (safeEnqueueText (countDm (enqueueOrDisconnect s target .dmRecv payload)) i .ok
        sentText).trace = s.trace ++ es ∧
      (es.flatMap Effect.output =
          [((s.clients target).conn, ⟨ServerMsgType.dmRecv.toByte, payload⟩)] ∨
        es.flatMap Effect.output =
          [((s.clients target).conn, ⟨ServerMsgType.dmRecv.toByte, payload⟩), (c, okSent)]) := by
  obtain ⟨es, htrace, hes⟩ := output_of_accepts .dmRecv h
  obtain ⟨es', htrace', hes'⟩ :=
    output_enqueue (countDm (enqueueOrDisconnect s target .dmRecv payload)) i .ok sentText
  refine ⟨es ++ es',
    ((countDm (enqueueOrDisconnect s target .dmRecv payload)).clients i).conn, ?_, ?_⟩
  · exact htrace'.trans ((congrArg (· ++ es') htrace).trans (List.append_assoc ..))
  · rw [List.flatMap_append, hes]
    rcases hes' with hes' | hes'
    · rw [hes', List.append_nil]
      exact .inl rfl
    · rw [hes']
      exact .inr rfl

/-- What a turn with a direct message for `target` says. -/
structure Delivers (s : Server) (i : Slot) (turn : Turn) (frame : Frame) (target : Slot)
    (text : Bytes) : Prop where
  request : turn.request = some frame
  accepts : AcceptsDm s i frame target text
  output : turn.output = [] ∨
    turn.output = [((s.clients target).conn,
      ⟨ServerMsgType.dmRecv.toByte, dmPayload (s.clients i) text⟩)] ∨
    turn.output = [((s.clients target).conn,
      ⟨ServerMsgType.dmRecv.toByte, dmPayload (s.clients i) text⟩), ((s.clients i).conn, okSent)]

/-- **A turn that handles a direct message** refuses it, or delivers it. -/
theorem TakesTurn.dm_cases (h : TakesTurn s t i turn) (hr : Reachable s)
    (hdm : isDm turn.request = true) :
    (∃ text, turn.output = [] ∨
        turn.output = [((s.clients i).conn, ⟨ServerMsgType.error.toByte, text⟩)]) ∨
      ∃ frame target text, Delivers s i turn frame target text := by
  obtain ⟨frame, hreq⟩ : ∃ frame, turn.request = some frame := by
    cases hreq : turn.request with
    | none =>
      rw [hreq] at hdm
      cases hdm
    | some frame => exact ⟨frame, rfl⟩
  obtain ⟨v, hserves⟩ := h.serves hr hreq
  have htype : frame.type = ClientMsgType.dm.toByte := by
    rw [hreq] at hdm
    exact beq_iff_eq.mp hdm
  have hne : ∀ {type : ClientMsgType}, frame.type = type.toByte → type = .dm := fun htype' =>
    ClientMsgType.toByte_inj.mp (htype'.symm.trans htype)
  have houtput := hserves.output
  have hending := hserves.ending
  rw [hserves.handled] at houtput hending
  generalize handleFrame (s.emit (.handled (s.clients i).conn frame)) i frame.type
    frame.payload = v at houtput hending
  cases hending with
  | refused text =>
    obtain ⟨es, htrace, hes⟩ :=
      output_enqueue (s.emit (.handled (s.clients i).conn frame)) i .error text
    have hout := houtput.symm.trans (flatMap_recorded htrace)
    exact .inl ⟨text, hes.imp hout.trans hout.trans⟩
  | @sentDm target text haccepts hroom =>
    refine .inr ⟨frame, target, text, hreq, ⟨htype, haccepts.registered, haccepts.found⟩, ?_⟩
    obtain ⟨es, c, htrace, hes⟩ := output_sentDm (i := i) hroom
    have hout := houtput.symm.trans (flatMap_recorded htrace)
    rcases hes with hes | hes
    · exact .inr (.inl (hout.trans hes))
    · -- a reply goes to the client whose turn it is
      have hmem : (c, okSent) ∈ turn.output := by
        rw [hout, hes]
        exact List.mem_cons_of_mem _ (List.mem_singleton_self _)
      have hc : c = (s.clients i).conn := (h.turnOk.own _ hmem rfl).trans h.conn
      exact .inr (.inr (hc ▸ hout.trans hes))
  | @lostDm target text haccepts hroom =>
    refine .inr ⟨frame, target, text, hreq, ⟨htype, haccepts.registered, haccepts.found⟩, ?_⟩
    obtain ⟨es, htrace, hes⟩ := output_of_not_accepts .dmRecv hroom
    rw [← houtput]
    exact .inl ((flatMap_recorded htrace).trans hes)
  | registered htype' _ => cases hne htype'
  | renamed htype' _ => cases hne htype'
  | joined htype' _ _ _ => cases hne htype'
  | switched htype' _ _ _ => cases hne htype'
  | left htype' _ _ _ => cases hne htype'
  | said hsay => cases hne hsay.say
  | queried text htype' hquery =>
    simp only [List.mem_cons, List.not_mem_nil, or_false] at hquery
    rcases hquery with h | h | h <;> cases hne h
  | quit htype' => cases hne htype'

/-- **What a turn says of direct messages**: nothing, or the turn handles one. -/
theorem TakesTurn.dm_output (h : TakesTurn s t i turn) (hr : Reachable s) :
    (∀ o ∈ turn.output, isDmRecv o.2 = false ∧ isAck o.2 = false) ∨
      ∃ frame target text, Delivers s i turn frame target text := by
  by_cases hdm : isDm turn.request = true
  · refine (h.dm_cases hr hdm).imp_left ?_
    rintro ⟨text, hout | hout⟩ o ho
    · rw [hout] at ho
      cases ho
    · rw [hout] at ho
      rw [List.mem_singleton.mp ho]
      exact ⟨rfl, decide_eq_false fun h => nomatch congrArg Frame.type h⟩
  · -- only a direct message makes the server send these
    refine .inl fun o ho => ⟨?_, ?_⟩
    · obtain ⟨j, type, payload, -, -, hframe, hemits⟩ := h.sends o ho
      by_contra hrecv
      have htype := isDmRecv_iff.mp (eq_true_of_ne_false hrecv)
      rw [hframe] at htype
      obtain rfl := ServerMsgType.toByte_inj.mp htype
      exact hdm ((isDm_iff s i).mpr hemits.1)
    · by_contra hack
      exact hdm (h.turnOk.sent o ho (isAck_iff.mp (eq_true_of_ne_false hack)))

/-- A direct message has at most one reply. -/
theorem TakesTurn.dm_replies_le (h : TakesTurn s t i turn) (hr : Reachable s)
    (hdm : isDm turn.request = true) : turn.replies.length ≤ 1 := by
  have hlen : turn.replies.length = turn.output.countP fun o => o.1 = turn.conn ∧ isReply o.2 := by
    rw [Turn.replies, Turn.outputTo, ← List.countP_eq_length_filter, List.countP_filterMap]
    refine List.countP_congr fun o _ => ?_
    by_cases ho : o.1 = turn.conn <;> simp [ho]
  rw [hlen]
  rcases h.dm_cases hr hdm with ⟨text, hout | hout⟩ | ⟨frame, target, text, hdelivers⟩
  · rw [hout]
    exact Nat.zero_le _
  · rw [hout]
    exact List.countP_le_length
  · rcases hdelivers.output with hout | hout | hout <;> rw [hout]
    · exact Nat.zero_le _
    · exact List.countP_le_length
    · rw [List.countP_cons_of_neg (by simp [ServerMsgType.isReply])]
      exact List.countP_le_length

/-! ## Every turn -/

/-- Two frames are not both a `DM_RECV`, and not both an acknowledgement. -/
def Apart (f g : Frame) : Prop :=
  ¬ (isDmRecv f = true ∧ isDmRecv g = true) ∧ ¬ (isAck f = true ∧ isAck g = true)

/-- **What is said of direct messages in a turn**: at most one `DM_RECV` and one acknowledgement,
and the `DM_RECV` carries the text of the request. -/
structure DmOk (turn : Turn) : Prop where
  apart : turn.output.Pairwise fun o o' => Apart o.2 o'.2
  relayed : ∀ o ∈ turn.output, isDmRecv o.2 = true → ∃ frame target text sender,
    turn.request = some frame ∧ frame.type = ClientMsgType.dm.toByte ∧
    readDmPayload frame.payload = some (target, text) ∧
    o.2.payload = ([sender, text].map stringField).flatten

theorem isAck_dmRecv (payload : Bytes) : isAck ⟨ServerMsgType.dmRecv.toByte, payload⟩ = false :=
  decide_eq_false fun h => nomatch congrArg Frame.type h

theorem isDmRecv_okSent : isDmRecv okSent = false := rfl

/-- A direct message is relayed in its own turn. -/
theorem Delivers.eq_recv {target : Slot} {text : Bytes} {o : ℕ × Frame}
    (h : Delivers s i turn frame target text) (ho : o ∈ turn.output)
    (hrecv : isDmRecv o.2 = true) : o = ((s.clients target).conn,
      ⟨ServerMsgType.dmRecv.toByte, dmPayload (s.clients i) text⟩) := by
  rcases h.output with hout | hout | hout
  · rw [hout] at ho
    cases ho
  · rw [hout] at ho
    exact List.mem_singleton.mp ho
  · rw [hout] at ho
    rcases List.mem_cons.mp ho with ho | ho
    · exact ho
    · rw [List.mem_singleton.mp ho, isDmRecv_okSent] at hrecv
      cases hrecv

theorem DmOk.apart_outputTo (h : DmOk turn) (k : ℕ) : (turn.outputTo k).Pairwise Apart := by
  refine List.pairwise_filterMap.mpr (h.apart.imp fun {o o'} hoo' f hf g hg => ?_)
  obtain rfl := Option.some.inj (Option.ite_none_right_eq_some.mp hf).2
  obtain rfl := Option.some.inj (Option.ite_none_right_eq_some.mp hg).2
  exact hoo'

/-- Only the addressee gets the `DM_RECV` of a turn. -/
theorem DmOk.eq_of_dmRecv (h : DmOk turn) {o o' : ℕ × Frame} (ho : o ∈ turn.output)
    (ho' : o' ∈ turn.output) (hrecv : isDmRecv o.2 = true) (hrecv' : isDmRecv o'.2 = true) :
    o = o' := by
  have hone : ∀ {a b : ℕ × Frame}, Apart a.2 b.2 → isDmRecv a.2 = true → isDmRecv b.2 = true →
      a = b := fun hapart ha hb => absurd ⟨ha, hb⟩ hapart.1
  exact List.Pairwise.forall_of_forall_of_flip
    (R := fun a b : ℕ × Frame => isDmRecv a.2 = true → isDmRecv b.2 = true → a = b)
    (fun _ _ _ _ => rfl) (h.apart.imp hone)
    (h.apart.imp fun hapart ha hb => (hone hapart hb ha).symm) ho ho' hrecv hrecv'

theorem TakesTurn.dmOk (h : TakesTurn s t i turn) (hr : Reachable s) : DmOk turn := by
  rcases h.dm_output hr with hnone | ⟨frame, target, text, hdelivers⟩
  · constructor
    · refine List.pairwise_of_forall_mem_list fun o ho o' _ => ⟨fun hrecv => ?_, fun hack => ?_⟩
      · rw [(hnone o ho).1] at hrecv
        cases hrecv.1
      · rw [(hnone o ho).2] at hack
        cases hack.1
    · intro o ho hrecv
      rw [(hnone o ho).1] at hrecv
      cases hrecv
  · constructor
    · rcases hdelivers.output with hout | hout | hout
      · rw [hout]
        exact .nil
      · rw [hout]
        exact List.pairwise_singleton _ _
      · rw [hout]
        refine List.pairwise_pair.mpr ⟨fun hrecv => ?_, fun hack => ?_⟩
        · rw [isDmRecv_okSent] at hrecv
          cases hrecv.2
        · rw [isAck_dmRecv] at hack
          cases hack.1
    · intro o ho hrecv
      obtain ⟨name, hread, -⟩ := hdelivers.accepts.found
      refine ⟨frame, name, text, (s.clients i).username, hdelivers.request, hdelivers.accepts.dm,
        hread, ?_⟩
      rw [hdelivers.eq_recv ho hrecv]
      rfl

theorem dmOk (hr : Reachable s) : ∀ turn ∈ turns s.trace, DmOk turn := by
  refine Transition.Reachable.invariant (P := fun s => ∀ turn ∈ turns s.trace, DmOk turn) ?_ ?_ hr
  · rintro _ ⟨maxQueueBytes, heap, -, rfl⟩ turn hturn
    cases hturn
  · intro s t hr hs hst turn hmem
    rcases hst.quiet_or_turn with hquiet | ⟨i, turn', hturn⟩
    · exact hs turn (turns_of_silent hquiet ▸ hmem)
    · rw [hturn.turns_eq] at hmem
      rcases List.mem_append.mp hmem with hmem | hmem
      · exact hs turn hmem
      · rw [List.mem_singleton.mp hmem]
        exact hturn.dmOk hr

/-- The direct messages that connection `k` gets are for the user of this name. -/
def Addressed (k : ℕ) (name : Bytes) (s : Server) : Prop :=
  ∀ turn ∈ turns s.trace, ∀ o ∈ turn.output, o.1 = k → isDmRecv o.2 = true →
    ∃ frame text, turn.request = some frame ∧ readDmPayload frame.payload = some (name, text)

/-- **A connection that keeps its name gets the direct messages for this name.** -/
theorem Addressed.step {name : Bytes} (hs : Addressed k name s) (hnamed : Named k name s)
    (hr : Reachable s) (h : Step s t) : Addressed k name t := by
  rcases h.quiet_or_turn with hquiet | ⟨i, turn', hturn⟩
  · rw [Addressed, turns_of_silent hquiet]
    exact hs
  · intro turn hmem o ho hk hrecv
    rw [hturn.turns_eq] at hmem
    rcases List.mem_append.mp hmem with hmem | hmem
    · exact hs turn hmem o ho hk hrecv
    · rw [List.mem_singleton.mp hmem] at ho ⊢
      rcases hturn.dm_output hr with hnone | ⟨frame, target, text, hdelivers⟩
      · rw [(hnone o ho).1] at hrecv
        cases hrecv
      · obtain ⟨name', hread, hfind⟩ := hdelivers.accepts.found
        obtain ⟨hl, hreg, rfl⟩ := findUser_eq_some hfind
        rw [hdelivers.eq_recv ho hrecv] at hk
        rw [hnamed target hl hk hreg] at hread
        exact ⟨frame, text, hdelivers.request, hread⟩

/-! ## The frames of a connection and their turns -/

theorem mem_outputsTo {trace : List Effect} : (frame, n) ∈ outputsTo k trace ↔
    ∃ turn, (turns trace)[n]? = some turn ∧ (k, frame) ∈ turn.output := by
  rw [outputsTo, mem_labelled]
  exact exists_congr fun turn => and_congr_right fun _ => mem_outputTo

theorem map_fst_outputsTo (hr : Reachable s) (k : ℕ) :
    (outputsTo k s.trace).map Prod.fst = enqueuedTo k s.trace := by
  rw [outputsTo, map_fst_labelled, (turnsOk hr).enqueued]

theorem Step.turns_prefix (h : Step s t) : turns s.trace <+: turns t.trace := by
  rcases h.quiet_or_turn with hquiet | ⟨i, turn, hturn⟩
  · exact (turns_of_silent hquiet).symm ▸ List.prefix_rfl
  · rw [hturn.turns_eq]
    exact List.prefix_append ..

theorem Answered.of_prefix {trace trace' : List Effect} (h : Answered k trace')
    (hpre : turns trace <+: turns trace') : Answered k trace :=
  fun turn hmem => h turn (hpre.subset hmem)

/-- **A frame of a direct message is determined by its turn.** -/
theorem outputsTo_inj (hr : Reachable s) {a b : ℕ} {f g : Frame}
    (ha : (outputsTo k s.trace)[a]? = some (f, n)) (hb : (outputsTo k s.trace)[b]? = some (g, n))
    (hfg : ¬ Apart f g) (hgf : ¬ Apart g f) : a = b := by
  have hapart : ∀ turn ∈ turns s.trace, (turn.outputTo k).Pairwise Apart := fun turn hturn =>
    (dmOk hr turn hturn).apart_outputTo k
  rcases Nat.lt_trichotomy a b with hlt | heq | hlt
  · exact absurd (rel_of_labelled hapart ha hb hlt) hfg
  · exact heq
  · exact absurd (rel_of_labelled hapart hb ha hlt) hgf

/-! ## Acknowledgements -/

/-- An acknowledgement is an answer of the turn. -/
theorem TurnsOk.mem_replies (hs : TurnsOk s) (hturn : turn ∈ turns s.trace)
    (hframe : frame ∈ turn.outputTo k) (hreply : isReply frame = true) :
    turn.conn = k ∧ frame ∈ turn.replies := by
  obtain rfl : k = turn.conn := (hs.turn turn hturn).own _ (mem_outputTo.mp hframe) hreply
  exact ⟨rfl, List.mem_filter.mpr ⟨hframe, hreply⟩⟩

/-- A connection whose direct messages are answered and to which nothing is refused gets no
`ERROR`. -/
theorem Answered.no_error (h : Answered k s.trace) (hr : Reachable s)
    (hframe : frame ∈ enqueuedTo k s.trace) : frame.type ≠ ServerMsgType.error.toByte := by
  intro htype
  rw [(turnsOk hr).enqueued] at hframe
  obtain ⟨turn, hturn, hframe⟩ := List.mem_flatMap.mp hframe
  have hreply : isReply frame = true := by
    rw [isReply, htype, ServerMsgType.ofByte_toByte]
    rfl
  obtain ⟨hk, hmem⟩ := (turnsOk hr).mem_replies hturn hframe hreply
  exact (h turn hturn hk).1 frame hmem htype

/-- **Each turn of a connection acknowledges the direct message it handles.** -/
theorem Answered.acks_eq (h : Answered k s.trace) (hr : Reachable s) :
    ∀ turn ∈ turns s.trace, ((turn.outputTo k).filter isAck).length =
      (if turn.conn = k then turn.request.toList.filter fun f => isDm (some f) else []).length := by
  intro turn hturn
  have hok := (turnsOk hr).turn turn hturn
  have hdm := dmOk hr turn hturn
  by_cases hdmTurn : turn.conn = k ∧ isDm turn.request = true
  · obtain ⟨rfl, hrequest⟩ := hdmTurn
    obtain ⟨frame, hreq⟩ : ∃ frame, turn.request = some frame := by
      cases hreq : turn.request with
      | none =>
        rw [hreq] at hrequest
        cases hrequest
      | some frame => exact ⟨frame, rfl⟩
    rw [if_pos rfl, hreq, Option.toList_some, List.filter_cons_of_pos (hreq ▸ hrequest),
      List.filter_nil, List.length_singleton]
    -- one of the answers is the acknowledgement, and there is no second one
    obtain ⟨herror, hne⟩ := h turn hturn rfl
    obtain ⟨reply, hreply⟩ := List.exists_mem_of_ne_nil _ (hne hrequest)
    obtain ⟨hmem, hisReply⟩ := List.mem_filter.mp hreply
    obtain rfl : reply = okSent :=
      (hok.dm hrequest _ (mem_outputTo.mp hmem) hisReply).resolve_right (herror reply hreply)
    exact length_filter_eq_one (hdm.apart_outputTo turn.conn)
      (fun f g hf hg hfg => hfg.2 ⟨hf, hg⟩) hmem rfl
  · rw [List.filter_eq_nil_iff.mpr fun f hf hack => ?_]
    · rw [List.length_nil]
      split_ifs with hk
      · cases hreq : turn.request with
        | none => rfl
        | some frame =>
          rw [hreq] at hdmTurn
          rw [Option.toList_some, List.filter_singleton,
            eq_false_of_ne_true fun hf => hdmTurn ⟨hk, hf⟩]
          rfl
      · rfl
    · obtain rfl := isAck_iff.mp hack
      exact hdmTurn ⟨((turnsOk hr).mem_replies hturn hf rfl).1, hok.sent _ (mem_outputTo.mp hf) rfl⟩

/-- **The acknowledgements a connection gets are those of its direct messages**, in their order. -/
theorem Answered.map_snd_acks (h : Answered k s.trace) (hr : Reachable s) :
    ((outputsTo k s.trace).filter fun e => isAck e.1).map Prod.snd =
      (dmsBy k s.trace).map Prod.snd := by
  rw [outputsTo, filter_labelled, dmsBy]
  exact map_snd_labelled_congr (h.acks_eq hr)

theorem countP_outputsTo (q : Frame → Bool) (hr : Reachable s) (k m : ℕ) :
    ((outputsTo k s.trace).take m).countP (fun e => q e.1) =
      ((enqueuedTo k s.trace).take m).countP q := by
  rw [← map_fst_outputsTo hr, ← List.map_take, List.countP_map]
  rfl

/-- **The direct message of an acknowledgement** has as many direct messages before it as the
acknowledgement has acknowledgements. -/
theorem dm_of_ack (h : Answered k s.trace) (hr : Reachable s) {m : ℕ}
    (hm : (outputsTo k s.trace)[m]? = some (okSent, n)) : ∃ frame,
      (dmsBy k s.trace)[((enqueuedTo k s.trace).take m).countP isAck]? = some (frame, n) := by
  have hget := getElem?_filter_countP (q := fun e : Frame × ℕ => isAck e.1) hm rfl
  rw [countP_outputsTo isAck hr] at hget
  have hlabel := congrArg (fun l : List ℕ => l[((enqueuedTo k s.trace).take m).countP isAck]?)
    (h.map_snd_acks hr)
  simp only [List.getElem?_map] at hlabel
  rw [hget] at hlabel
  obtain ⟨⟨frame, n'⟩, hdm, hn⟩ := Option.map_eq_some_iff.mp hlabel.symm
  exact ⟨frame, hdm.trans (congrArg (fun n => some (frame, n)) hn)⟩

/-- The direct messages of a connection are among the frames handled for it. -/
theorem map_fst_dmsBy (hr : Reachable s) (k : ℕ) : (dmsBy k s.trace).map Prod.fst =
    (handledBy k s.trace).filter fun f => isDm (some f) := by
  rw [dmsBy, map_fst_labelled, (turnsOk hr).handled, List.filter_flatMap]
  refine List.flatMap_congr fun turn _ => ?_
  split_ifs <;> rfl

theorem mem_dmsBy {trace : List Effect} : (frame, n) ∈ dmsBy k trace ↔
    ∃ turn, (turns trace)[n]? = some turn ∧ turn.conn = k ∧ turn.request = some frame ∧
      frame.type = ClientMsgType.dm.toByte := by
  rw [dmsBy, mem_labelled]
  refine exists_congr fun turn => and_congr_right fun _ => ?_
  constructor
  · intro h
    split_ifs at h with hk
    · obtain ⟨hmem, hdm⟩ := List.mem_filter.mp h
      exact ⟨hk, Option.mem_toList.mp hmem, beq_iff_eq.mp hdm⟩
    · cases h
  · rintro ⟨hk, hreq, htype⟩
    rw [if_pos hk]
    exact List.mem_filter.mpr ⟨Option.mem_toList.mpr hreq, beq_iff_eq.mpr htype⟩

/-! ## The fields of a direct message -/

/-- What `handle_dm` reads of a target and a text that were packed alone. -/
theorem readDmPayload_fields {target text target' text' : Bytes} (htarget : target.length < 65536)
    (htext : text.length < 65536)
    (h : readDmPayload (stringField target ++ stringField text) = some (target', text')) :
    target' = cstr target ∧ text' = cstr text := by
  unfold readDmPayload at h
  by_cases hname : target.length ≤ cwMaxStringSize ∧ target.length ≤ cwNameCap
  · have hfirst := @cwReadString_stringField [] target (stringField text) (cwNameCap + 1) hname.1
      (Nat.lt_succ_of_le hname.2)
    have hoffset : 0 + 2 + target.length = (stringField target).length := by
      rw [length_stringField]
      omega
    rw [List.nil_append, List.length_nil, hoffset] at hfirst
    rw [hfirst] at h
    simp only at h
    by_cases hfits : text.length ≤ cwMaxStringSize
    · have hsecond := @cwReadString_stringField (stringField target) text [] (cwTextCap + 1) hfits
        (Nat.lt_succ_of_le hfits)
      rw [List.append_nil] at hsecond
      rw [hsecond] at h
      simp only at h
      split_ifs at h
      exact ⟨(Prod.mk.inj (Option.some.inj h)).1.symm, (Prod.mk.inj (Option.some.inj h)).2.symm⟩
    · have hsecond := @cwReadString_stringField_of_large (stringField target) text []
        (cwTextCap + 1) htext (.inl (not_le.mp hfits))
      rw [List.append_nil] at hsecond
      rw [hsecond] at h
      cases h
  · have hlarge : cwMaxStringSize < target.length ∨ cwNameCap + 1 ≤ target.length := by omega
    have hfirst := @cwReadString_stringField_of_large [] target (stringField text)
      (cwNameCap + 1) htarget hlarge
    rw [List.nil_append, List.length_nil] at hfirst
    rw [hfirst] at h
    cases h

/-! ## Replies and their turns -/

/-- The answers connection `k` gets, with the numbers of their turns. -/
def answersIn (k : ℕ) (trace : List Effect) : List (Answer × ℕ) :=
  labelled (fun turn : Turn => if turn.conn = k then turn.answers else []) (turns trace)

/-- The replies among the frames of a connection are those of its answers. -/
theorem answersIn_reply (hr : Reachable s) (k : ℕ) :
    (answersIn k s.trace).map (Prod.map Answer.reply id) =
      (outputsTo k s.trace).filter fun e => isReply e.1 := by
  rw [outputsTo, filter_labelled, answersIn, map_labelled]
  refine labelled_congr fun turn hturn => ?_
  by_cases hk : turn.conn = k
  · subst hk
    rw [if_pos rfl, Turn.answers, List.map_map]
    exact List.map_id _
  · rw [if_neg hk, List.map_nil, eq_comm, List.filter_eq_nil_iff]
    intro f hf hreply
    exact hk ((turnsOk hr).mem_replies hturn hf hreply).1

/-- **The request that a reply answers is that of its turn.**  Among the answers of the connection
it has as many before it as there are replies before it. -/
theorem answer_of_output (hr : Reachable s) {m : ℕ}
    (hm : (outputsTo k s.trace)[m]? = some (frame, n)) (hreply : isReply frame = true) :
    ∃ a turn, (answers k s.trace)[((enqueuedTo k s.trace).take m).countP isReply]? = some a ∧
      a.reply = frame ∧ (turns s.trace)[n]? = some turn ∧ turn.conn = k ∧
      a.request = turn.request := by
  have hget := getElem?_filter_countP (q := fun e : Frame × ℕ => isReply e.1) hm hreply
  rw [countP_outputsTo isReply hr, ← answersIn_reply hr, List.getElem?_map] at hget
  obtain ⟨⟨a, n'⟩, ha, heq⟩ := Option.map_eq_some_iff.mp hget
  obtain ⟨rfl, rfl⟩ := Prod.mk.inj heq
  obtain ⟨turn, hturn, hmem⟩ := mem_labelled.mp (List.mem_of_getElem? ha)
  have hanswers : answers k s.trace = (answersIn k s.trace).map Prod.fst :=
    (map_fst_labelled ..).symm
  split_ifs at hmem with hk
  · obtain ⟨reply, -, rfl⟩ := List.mem_map.mp hmem
    exact ⟨_, turn, by rw [hanswers, List.getElem?_map, ha]; rfl, rfl, hturn, hk, rfl⟩
  · cases hmem

/-- The answers of connection `k` to direct messages are to the first ones that were handled. -/
def DmsInOrder (k : ℕ) (trace : List Effect) : Prop :=
  (dmAnswers k trace).map Answer.request <+: ((handledBy k trace).map some).filter isDm

/-- The requests of the answers of a turn with a direct message. -/
theorem TakesTurn.answers_request (h : TakesTurn s t i turn) (hr : Reachable s) :
    ((turn.answers.filter fun a => isDm a.request).map Answer.request) <+:
      (turn.request.toList.map some).filter isDm := by
  cases hdm : isDm turn.request with
  | false =>
    have hnone : (turn.answers.filter fun a => isDm a.request) = [] := by
      refine List.filter_eq_nil_iff.mpr fun a ha => ?_
      obtain ⟨reply, -, rfl⟩ := List.mem_map.mp ha
      rw [hdm]
      exact Bool.false_ne_true
    rw [hnone]
    exact List.nil_prefix
  | true =>
    have hle := h.dm_replies_le hr hdm
    cases hreq : turn.request with
    | none =>
      rw [hreq] at hdm
      cases hdm
    | some f =>
      rw [hreq] at hdm
      rw [Turn.answers, hreq]
      generalize turn.replies = replies at hle
      cases replies with
      | nil => exact List.nil_prefix
      | cons reply rest =>
        obtain rfl : rest = [] :=
          List.length_eq_zero_iff.mp (Nat.le_zero.mp (Nat.le_of_succ_le_succ hle))
        simp [hdm]

/-- **What is answered stays in order**, also when the connection is closed by the turn. -/
theorem DmsInOrder.step (hs : DmsInOrder k s.trace) (hr : Reachable s) (h : Step s t)
    (hreplied : (∃ i, (s.clients i).Live ∧ (s.clients i).conn = k) → DmsReplied k s.trace) :
    DmsInOrder k t.trace := by
  rcases h.quiet_or_turn with hquiet | ⟨i, turn, hturn⟩
  · rw [DmsInOrder, dmAnswers, answers_of_silent hquiet, handledBy_of_silent hquiet]
    exact hs
  · rw [DmsInOrder, dmAnswers, hturn.answers_eq, hturn.handledBy_eq]
    by_cases hk : turn.conn = k
    · have hold := (turnsOk hr).dmAnswers_request (hreplied ⟨i, hturn.live, hturn.conn ▸ hk⟩)
      rw [if_pos hk, if_pos hk, List.filter_append, List.map_append, List.map_append,
        List.filter_append, ← hold]
      exact List.prefix_append_right_inj _ |>.mpr (hturn.answers_request hr)
    · rw [if_neg hk, if_neg hk, List.append_nil, List.append_nil]
      exact hs

end Core
end ChannelWire
