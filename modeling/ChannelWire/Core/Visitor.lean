import ChannelWire.Core.ActiveChannel
import ChannelWire.Core.InputStream

/-!
# Visitors

A visitor is a connection that sends a `HELLO`, one query, `LIST` or `STATS`, and a `QUIT`.  It
joins no channel, so the turns of others say nothing to it but direct messages for its name
(`TakesTurn.outputTo_stranger`), and its own turns say the answers to its three frames.

`Undisturbed` says that a step refuses the visitor nothing: nobody else has its name when it says
`HELLO`, no direct message for it is handled before its query, and there is room for what it is
told.  Then the first frame it gets is the greeting and the second the answer to its query
(`Visit.step`).
-/

namespace ChannelWire
namespace Core

variable {s t : Server} {i j : Slot} {turn : Turn} {frame : Frame} {k : ℕ}

/-! ## Answers to queries -/

/-- The lines of names that are not too many fit. -/
theorem exists_appendLines {cap m : ℕ} {names : List Bytes} {used : Bytes}
    (hlen : ∀ name ∈ names, name.length ≤ m) (h : used.length + names.length * (m + 1) < cap) :
    ∃ payload, appendLines cap used names = some payload := by
  induction names generalizing used with
  | nil => exact ⟨used, rfl⟩
  | cons name names ih =>
    obtain ⟨hname, hnames⟩ := List.forall_mem_cons.mp hlen
    rw [List.length_cons, Nat.succ_mul] at h
    have hwritten : ((if used.length = 0 then [] else [10]) ++ name).length ≤ m + 1 := by
      rw [List.length_append]
      split_ifs
      · exact ((Nat.zero_add _).trans_le hname).trans (Nat.le_succ m)
      · exact (Nat.add_comm ..).trans_le (Nat.succ_le_succ hname)
    rw [appendLines, if_neg (by omega)]
    refine ih hnames ?_
    rw [List.length_append]
    omega

/-- The whole table of channels fits a payload. -/
theorem ChannelsOk.exists_list (hc : ChannelsOk s) :
    ∃ payload, appendLines cwMaxPayloadSize [] s.channels = some payload := by
  refine exists_appendLines (m := cwNameCap) (fun name hname => (hc.valid name hname).length_le) ?_
  have hcount := hc.length_le
  rw [List.length_nil]
  unfold cwMaxChannels at hcount
  unfold cwMaxPayloadSize cwNameCap
  omega

/-- What `send_list` or `send_stats` answers, unless it is an `ERROR`. -/
def queryAnswer (s : Server) : ClientMsgType → Option (ServerMsgType × Bytes)
  | .list => (appendLines cwMaxPayloadSize [] s.channels).map (.listResp, ·)
  | .stats => if (statsText s).length < cwMaxPayloadSize then some (.statsResp, statsText s) else none
  | _ => none

theorem handleFrame_of_query {type : ClientMsgType} {answer : ServerMsgType × Bytes}
    (htype : frame.type = type.toByte) (h : queryAnswer s type = some answer) :
    handleFrame s i frame.type frame.payload = safeEnqueueText s i answer.1 answer.2 := by
  rw [handleFrame, htype, ClientMsgType.ofByte_toByte]
  unfold queryAnswer at h
  cases type with
  | list =>
    obtain ⟨payload, hlines, rfl⟩ := Option.map_eq_some_iff.mp h
    show sendList s i = _
    rw [sendList, hlines]
  | stats =>
    obtain ⟨hfits, hanswer⟩ := Option.ite_none_right_eq_some.mp h
    show sendStats s i = _
    simp only [sendStats]
    rw [if_neg (not_le.mpr hfits), ← Option.some.inj hanswer]
  | hello | join | leave | switch | say | dm | who | nick | quit => cases h

theorem handleFrame_of_hello (htype : frame.type = ClientMsgType.hello.toByte) {name : Bytes}
    (h : AcceptsName s i frame name) : handleFrame s i frame.type frame.payload =
      safeEnqueueText (takeName s i name) i .ok (ascii "registered") := by
  obtain ⟨-, -, hs⟩ := readName_eq_some h.read
  rw [handleFrame, htype, ClientMsgType.ofByte_toByte]
  show handleHello s i frame.payload = _
  simp only [handleHello, h.read, h.free, hs]
  rfl

/-! ## The turns of others -/

/-- What the slot of another client is like after a request: it is the target of a direct message,
or it is as it was. -/
theorem Ending.stranger {v : Server} (hr : ChannelsOk s ∧ NamesOk s)
    (hv : v = handleFrame s i frame.type frame.payload) (hl : (s.clients i).Live) (hne : j ≠ i)
    (halone : ∀ idx, (s.clients j).joined idx = false) :
    (∃ text, AcceptsDm s i frame j text) ∨ v.clients j = s.clients j := by
  have hshares : ¬ SharesChannel s i j := by
    rintro ⟨idx, -, hmember⟩
    have hjoined := (Client.isMember_iff.mp hmember).2.2
    rw [halone idx] at hjoined
    cases hjoined
  by_cases hsay : ∃ idx text, AcceptsSay s i frame idx text
  · obtain ⟨idx, text, hsay⟩ := hsay
    rw [hv, handleFrame_of_acceptsSay hr.1 hr.2 hsay]
    exact .inr ((chatSent_slot hsay).2 hshares).clients
  by_cases hdm : ∃ target text, AcceptsDm s i frame target text
  · obtain ⟨target, text, hdm⟩ := hdm
    rcases eq_or_ne j target with rfl | hother
    · exact .inl ⟨text, hdm⟩
    · exact .inr (hv ▸ ((dm_slot hr.2 hdm hne).2 hother).clients)
  by_cases hnick : ∃ name, frame.type = ClientMsgType.nick.toByte ∧ AcceptsName s i frame name
  · obtain ⟨name, htype, hname⟩ := hnick
    have hsame := (renamed_slot hr.1 hl name hne (handleFrame_of_nick htype hname)).2 (.inr hshares)
    exact .inr (hv ▸ hsame.clients)
  · refine .inr (hv ▸ (handleFrame_ending hr.1 hr.2 i frame).others hr.1 hl ?_ ?_ ?_ hne)
    · exact fun idx text h => hsay ⟨idx, text, h⟩
    · exact fun target text h => hdm ⟨target, text, h⟩
    · exact fun name htype hname => absurd ⟨name, htype, hname⟩ hnick

/-- **The turns of others say nothing to a client without channels but direct messages.** -/
theorem TakesTurn.outputTo_stranger (h : TakesTurn s t i turn) (hr : Reachable s) (hne : j ≠ i)
    (hl : (s.clients j).Live) (halone : ∀ idx, (s.clients j).joined idx = false) :
    (∃ frame text, turn.request = some frame ∧ AcceptsDm s i frame j text) ∨
      turn.outputTo (s.clients j).conn = [] ∧ SameButBuffers (s.clients j) (t.clients j) := by
  have hn := numbered hr.moveReachable
  cases hreq : turn.request with
  | none =>
    refine .inr ⟨List.eq_nil_iff_forall_not_mem.mpr fun f hf => ?_, ?_⟩
    · obtain ⟨j', type, payload, hl', hconn, hframe, hemits⟩ := h.sends _ (mem_outputTo.mp hf)
      have htype : (requestOf turn s i).type = 0 := by
        rw [requestOf, hreq]
        rfl
      have hother : ∀ {msg : ClientMsgType}, (requestOf turn s i).type ≠ msg.toByte := by
        intro msg heq
        rw [htype] at heq
        cases msg <;> exact absurd heq (by decide)
      have hself : j' ≠ i := by
        rintro rfl
        exact hne (hn.unique j j' hl hl' hconn.symm)
      cases type with
      | chat | dmRecv | system => exact hother hemits.1
      | error => exact hself hemits
      | ok | whoResp | listResp | statsResp => exact hself hemits.1
    · rw [h.rejects hreq]
      have hsame : (rejectHeader s i).clients j = s.clients j :=
        enqueueOrDisconnect_clients_of_ne _ _ hne
      rw [hsame]
      exact .refl _
  | some frame =>
    obtain ⟨v, hserves⟩ := h.serves hr hreq
    have hc := (channelsOk hr.moveReachable).emit (.handled (s.clients i).conn frame)
    have hv := (namesOk hr.moveReachable).emit (.handled (s.clients i).conn frame)
    rcases Ending.stranger (j := j) ⟨hc, hv⟩ hserves.handled h.live hne halone with
      ⟨text, hdm⟩ | hsame
    · exact .inl ⟨frame, text, rfl, hdm.dm, hdm.registered, hdm.found⟩
    · obtain ⟨inbuf, hclient⟩ := hserves.clients j
      refine .inr ⟨?_, inbuf, (s.clients j).out, (s.clients j).queuedBytes, by rw [hclient, hsame]; rfl⟩
      -- its queue has not grown, so nothing was enqueued to it
      have hlive : (v.clients j).Live := by
        rw [hsame]
        exact hl
      have hnu : Numbered (s.emit (.handled (s.clients i).conn frame)) :=
        (Move.handle h.live).numbered hn
      rw [hserves.handled] at hlive hsame
      obtain ⟨frames, hout, henq⟩ := Actions.appends
        (handleFrame_actions (s := s.emit (.handled (s.clients i).conn frame)) frame.type
          frame.payload h.live) hnu hlive
      rw [hsame] at hout
      obtain rfl : frames = [] :=
        List.map_eq_nil_iff.mp (List.append_right_eq_self.mp hout.symm)
      have hemit : enqueuedTo (s.clients j).conn
          (s.emit (.handled (s.clients i).conn frame)).trace = enqueuedTo (s.clients j).conn s.trace := by
        rw [enqueuedTo, Server.emit_trace, List.flatMap_append]
        exact List.append_nil _
      have hturn := h.enqueuedTo_eq (s.clients j).conn
      rw [hserves.trace, hserves.handled] at hturn
      exact List.append_right_eq_self.mp (hturn.symm.trans (henq.trans
        ((List.append_nil _).trans hemit)))

/-! ## Visitors -/

/-- What a visitor sends: a `HELLO` with its name, a query, and `QUIT`. -/
structure Visitor where
  name : Bytes
  hello : Frame
  type : ClientMsgType
  hello_type : hello.type = ClientMsgType.hello.toByte
  hello_name : readName hello.payload cwNameCap = some name
  hello_length : hello.payload.length ≤ cwMaxPayloadSize
  type_mem : type = .list ∨ type = .stats

/-- What a visitor is told first. -/
def greeting : Frame := ⟨ServerMsgType.ok.toByte, ascii "registered"⟩

namespace Visitor

variable {v : Visitor}

/-- The query. -/
def query (v : Visitor) : Frame := ⟨v.type.toByte, []⟩

/-- The frames of the visitor. -/
def script (v : Visitor) : List Frame := [v.hello, v.query, ⟨ClientMsgType.quit.toByte, []⟩]

theorem query_ne_hello (v : Visitor) : v.query ≠ v.hello := by
  intro heq
  have htype := ClientMsgType.toByte_inj.mp ((congrArg Frame.type heq).trans v.hello_type)
  rcases v.type_mem with hlist | hstats
  · cases hlist.symm.trans htype
  · cases hstats.symm.trans htype

theorem valid_script (v : Visitor) : ∀ f ∈ v.script, cwFraming.Valid f := by
  intro f hf
  simp only [script, List.mem_cons, List.not_mem_nil, or_false] at hf
  rcases hf with rfl | rfl | rfl
  · exact v.hello_length
  · exact Nat.zero_le _
  · exact Nat.zero_le _

end Visitor

/-- **The step refuses the visitor of connection `k` nothing.** -/
structure Undisturbed (v : Visitor) (k : ℕ) (s t : Server) : Prop where
  /-- Nobody else has its name, and there is room for the greeting. -/
  greets : ∀ i turn, TakesTurn s t i turn → turn.conn = k → turn.request = some v.hello →
    usernameInUse s v.name i = false ∧ Accepts s i greeting.payload
  /-- There is room for the answer to its query. -/
  answers : ∀ i turn, TakesTurn s t i turn → turn.conn = k → turn.request = some v.query →
    ∃ answer, queryAnswer s v.type = some answer ∧ Accepts s i answer.2
  /-- Direct messages for it come after its query, and find room. -/
  waits : ∀ i turn frame j text, TakesTurn s t i turn → turn.request = some frame →
    AcceptsDm s i frame j text → (s.clients j).conn = k →
    v.query ∈ handledBy k s.trace ∧ Accepts s j (dmPayload (s.clients i) text)
  /-- Its connection is not closed for an error of `poll`, `recv` or `send`. -/
  stays : ∀ i reason, (s.clients i).Live → (s.clients i).conn = k →
    t ≠ disconnectClient s i reason

/-- How far a visit is, from the frames that were handled and enqueued; `P` is what is known of the
answer to the query. -/
inductive Stage (v : Visitor) (P : Frame → Prop) : List Frame → List Frame → Prop where
  | arrived : Stage v P [] []
  | greeted : Stage v P [v.hello] [greeting]
  | answered {answer : Frame} {dms : List Frame} : P answer →
      Stage v P [v.hello, v.query] (greeting :: answer :: dms)

/-- **A visit.**  The visitor is there, or it has quit. -/
inductive Visit (v : Visitor) (P : Frame → Prop) (k : ℕ) (s : Server) : Prop where
  | here {j : Slot} : (s.clients j).Live → (s.clients j).conn = k →
      Stage v P (handledBy k s.trace) (enqueuedTo k s.trace) → Visit v P k s
  | gone {answer : Frame} {dms : List Frame} : (∀ i, (s.clients i).Live → (s.clients i).conn ≠ k) →
      handledBy k s.trace = v.script → enqueuedTo k s.trace = greeting :: answer :: dms →
      P answer → Visit v P k s

section Visit

variable {v : Visitor} {P P' : Frame → Prop} {handled enqueued : List Frame}

theorem Stage.mono (h : Stage v P handled enqueued) (hP : ∀ f, P f → P' f) :
    Stage v P' handled enqueued := by
  cases h with
  | arrived => exact .arrived
  | greeted => exact .greeted
  | answered hanswer => exact .answered (hP _ hanswer)

/-- Behind the answer there may be anything. -/
theorem Stage.append (h : Stage v P handled enqueued) (hquery : v.query ∈ handled)
    (frames : List Frame) : Stage v P handled (enqueued ++ frames) := by
  cases h with
  | arrived => cases hquery
  | greeted => exact absurd (List.mem_singleton.mp hquery) v.query_ne_hello
  | answered hanswer => exact .answered hanswer

theorem Stage.no_join (h : Stage v P handled enqueued) :
    ∀ f ∈ handled, f.type ≠ ClientMsgType.join.toByte := by
  have hhello : v.hello.type ≠ ClientMsgType.join.toByte := by
    rw [v.hello_type]
    decide
  have hquery : v.query.type ≠ ClientMsgType.join.toByte := by
    rw [Visitor.query]
    rcases v.type_mem with hlist | hstats
    · rw [hlist]
      decide
    · rw [hstats]
      decide
  cases h with
  | arrived => exact fun f hf => absurd hf List.not_mem_nil
  | greeted => exact fun f hf => List.mem_singleton.mp hf ▸ hhello
  | answered _ =>
    intro f hf
    rcases List.mem_cons.mp hf with rfl | hf
    · exact hhello
    · exact List.mem_singleton.mp hf ▸ hquery

/-- A visitor joins no channel. -/
theorem Stage.alone (h : Stage v P (handledBy (s.clients j).conn s.trace) enqueued)
    (hr : Reachable s) (hl : (s.clients j).Live) (idx : ℕ) : (s.clients j).joined idx = false := by
  by_contra hjoined
  have hjoined := eq_true_of_ne_false hjoined
  have hlt := ((channelsOk hr.moveReachable).clients j).joined_lt idx hjoined
  obtain ⟨f, htype, -, hanswer⟩ :=
    (joinsOk hr).joined j idx _ hl hjoined (List.getElem?_eq_getElem hlt)
  exact h.no_join f ((turnsOk hr).handled_of_answer hanswer rfl) htype

/-! ## One step -/

/-- A step that is no turn leaves a client its slot, unless it disconnects it. -/
theorem Step.turn_or_stays (h : Step s t) (hl : (s.clients j).Live)
    (hnot : ∀ reason, t ≠ disconnectClient s j reason) : (∃ i turn, TakesTurn s t i turn) ∨
      Silent Effect.IsTurn s t ∧ (t.clients j).Live ∧ (t.clients j).conn = (s.clients j).conn := by
  by_cases hturn : ∃ i turn, TakesTurn s t i turn
  · exact .inl hturn
  refine .inr ⟨h.quiet_or_turn.resolve_right hturn, ?_⟩
  have hsame : ∀ {i : Slot} {c : Client}, t.clients = Function.update s.clients i c →
      (i = j → c.Live ∧ c.conn = (s.clients j).conn) →
      (t.clients j).Live ∧ (t.clients j).conn = (s.clients j).conn := by
    intro i c hclients hc
    rw [hclients]
    rcases eq_or_ne j i with rfl | hne
    · rw [Function.update_self]
      exact hc rfl
    · rw [Function.update_of_ne hne]
      exact ⟨hl, rfl⟩
  cases h with
  | @accept fd nonblocking hfd =>
    cases hfree : (freeSlot s).filter fun _ => nonblocking with
    | none =>
      have heq : acceptConnection s fd nonblocking = s := by
        unfold acceptConnection
        rw [hfree]
      rw [heq]
      exact ⟨hl, rfl⟩
    | some slot =>
      have heq : acceptConnection s fd nonblocking = occupySlot s slot fd := by
        unfold acceptConnection
        rw [hfree]
      refine hsame (i := slot) (by rw [heq]; rfl) fun hself => ?_
      have hslot := List.find?_some (Option.filter_eq_some_iff.mp hfree).1
      exact absurd (hself ▸ hl) (of_decide_eq_true hslot)
  | recv hlive _ _ =>
    refine hsame rfl fun hself => ?_
    subst hself
    exact ⟨hlive, rfl⟩
  | drain hlive =>
    rcases drainTurn_quiet_or_turn hlive with heq | ⟨turn, htakes⟩
    · rw [heq]
      exact ⟨hl, rfl⟩
    · exact absurd ⟨_, turn, htakes⟩ hturn
  | send hlive hout _ _ =>
    obtain ⟨out, queuedBytes, hclients, -⟩ := takeSent_clients hout
    refine hsame hclients fun hself => ?_
    subst hself
    exact ⟨hlive, rfl⟩
  | @disconnect i reason hlive =>
    refine hsame (disconnectClient_clients ..) fun hself => ?_
    subst hself
    exact absurd rfl (hnot reason)

/-- The input buffer of a visitor never starts with a bad header. -/
theorem InputOk.head_ne_bad {frames : List Frame} (hs : InputOk s) (hl : (s.clients i).Live)
    (hframes : ∀ f ∈ frames, cwFraming.Valid f)
    (hreceived : receivedBy (s.clients i).conn s.trace <+: cwFraming.encodeAll frames) :
    frameHead cwMaxPayloadSize (s.clients i).inbuf ≠ .bad := by
  intro hbad
  have hhandled := (hs.handled (s.clients i).conn).trans
    (StreamDecoder.Codec.parse_prefix hframes hreceived)
  obtain ⟨rest, rfl⟩ := hhandled
  rw [hs.live i hl, StreamDecoder.Codec.encodeAll_append, List.prefix_append_right_inj] at hreceived
  obtain ⟨more, hmore⟩ := hreceived
  have hstable := cwFraming.bad_stable hbad more
  rw [hmore] at hstable
  cases rest with
  | nil => cases hstable
  | cons f rest =>
    have hitem := cwFraming.head_encode (hframes f (List.mem_append_right _ List.mem_cons_self))
      (cwFraming.encodeAll rest)
    rw [StreamDecoder.Codec.encodeAll_cons] at hstable
    rw [hitem] at hstable
    cases hstable

/-- A turn that answers its client. -/
theorem Serves.replies {u w : Server} {type : ServerMsgType} {text : Bytes}
    (h : Serves s t i turn frame w) (hw : w = safeEnqueueText u i type text)
    (htrace : u.trace = (s.emit (.handled (s.clients i).conn frame)).trace)
    (hclient : (u.clients i).fd = (s.clients i).fd ∧ (u.clients i).conn = (s.clients i).conn)
    (hroom : Accepts u i text) : turn.output = [((s.clients i).conn, ⟨type.toByte, text⟩)] ∧
      (t.clients i).fd = (s.clients i).fd ∧ (t.clients i).conn = (s.clients i).conn := by
  subst hw
  obtain ⟨inbuf, htclient⟩ := h.clients i
  obtain ⟨out, queuedBytes, hreply⟩ := @reply_client _ _ type _ hroom
  obtain ⟨es, hes, houtput⟩ := output_of_accepts type hroom
  rw [htrace] at hes
  refine ⟨?_, ?_, ?_⟩
  · rw [hclient.2] at houtput
    exact h.output.symm.trans ((flatMap_recorded hes).trans houtput)
  · rw [htclient, hreply]
    exact hclient.1
  · rw [htclient, hreply]
    exact hclient.2

/-- The next frame of a script. -/
theorem getElem?_of_concat_isPrefix {α : Type*} {l l' : List α} {a : α} (h : l ++ [a] <+: l') :
    l'[l.length]? = some a := by
  obtain ⟨rest, rfl⟩ := h
  rw [List.append_assoc, List.getElem?_append_right (Nat.le_refl _), Nat.sub_self]
  rfl

/-- **The visitor's own turn.** -/
theorem Stage.own (h : Stage v P (handledBy (s.clients j).conn s.trace)
      (enqueuedTo (s.clients j).conn s.trace))
    (hr : Reachable s) (hturn : TakesTurn s t j turn)
    (hu : Undisturbed v (s.clients j).conn s t) (hl : (s.clients j).Live)
    (hpre : handledBy (s.clients j).conn t.trace <+: v.script)
    (hnotbad : turn.request ≠ none)
    (hanswer : ∀ answer, queryAnswer s v.type = some answer → P ⟨answer.1.toByte, answer.2⟩) :
    Visit v P (s.clients j).conn t := by
  obtain ⟨frame, hreq⟩ := Option.ne_none_iff_exists'.mp hnotbad
  obtain ⟨w, hserves⟩ := hturn.serves hr hreq
  have hhandled := hturn.handledBy_eq (s.clients j).conn
  rw [if_pos hturn.conn, hreq, Option.toList_some] at hhandled
  have henqueued := hturn.enqueuedTo_eq (s.clients j).conn
  rw [hhandled] at hpre
  have hnext := getElem?_of_concat_isPrefix hpre
  -- what a turn with one answer leads to
  have hone : ∀ {type : ServerMsgType} {text : Bytes},
      turn.output = [((s.clients j).conn, ⟨type.toByte, text⟩)] →
      turn.outputTo (s.clients j).conn = [⟨type.toByte, text⟩] := by
    intro type text houtput
    rw [Turn.outputTo, houtput, List.filterMap_cons, if_pos rfl, List.filterMap_nil]
  generalize hH : handledBy (s.clients j).conn s.trace = handled at h hhandled hnext
  generalize hE : enqueuedTo (s.clients j).conn s.trace = enqueued at h henqueued
  cases h with
  | arrived =>
    obtain rfl : v.hello = frame := Option.some.inj hnext
    obtain ⟨hfree, hroom⟩ := hu.greets j turn hturn hturn.conn hreq
    have haccepts : AcceptsName (s.emit (.handled (s.clients j).conn v.hello)) j v.hello v.name :=
      ⟨v.hello_name, hfree⟩
    have hw := hserves.handled.trans (handleFrame_of_hello v.hello_type haccepts)
    obtain ⟨houtput, hfd, hconn⟩ := hserves.replies hw rfl
      (by rw [takeName, Server.setClient_self]; exact ⟨rfl, rfl⟩)
      (by
        have hsame : ((takeName (s.emit (.handled (s.clients j).conn v.hello)) j v.name).clients
            j).queuedBytes = (s.clients j).queuedBytes := by
          rw [takeName, Server.setClient_self]
          rfl
        rw [Accepts, hsame]
        exact hroom)
    refine .here (j := j) ?_ hconn ?_
    · rw [Client.Live, hfd]
      exact hl
    · rw [hhandled, henqueued, hone houtput]
      exact .greeted
  | greeted =>
    obtain rfl : v.query = frame := Option.some.inj hnext
    obtain ⟨answer, hquery, hroom⟩ := hu.answers j turn hturn hturn.conn hreq
    have hw := hserves.handled.trans (handleFrame_of_query rfl hquery)
    obtain ⟨houtput, hfd, hconn⟩ := hserves.replies hw rfl ⟨rfl, rfl⟩ hroom
    refine .here (j := j) ?_ hconn ?_
    · rw [Client.Live, hfd]
      exact hl
    · rw [hhandled, henqueued, hone houtput]
      exact .answered (hanswer answer hquery)
  | @answered answer dms hP =>
    obtain rfl : (⟨ClientMsgType.quit.toByte, []⟩ : Frame) = frame := Option.some.inj hnext
    have hw : w = disconnectClient (s.emit (.handled (s.clients j).conn
        ⟨ClientMsgType.quit.toByte, []⟩)) j .clientQuit := hserves.handled
    have hclosed : ∀ i, (t.clients i).Live → (t.clients i).conn ≠ (s.clients j).conn := by
      intro i hli hconn
      obtain ⟨hlive, hsame⟩ := hturn.after i hli
      obtain rfl := (numbered hr.moveReachable).unique i j hlive hl (hsame.symm.trans hconn)
      obtain ⟨inbuf, hclient⟩ := hserves.clients i
      rw [hclient, hw, disconnectClient_clients, Function.update_self] at hli
      exact absurd hli (Client.not_live_reset (s.clients i))
    exact .gone hclosed (by rw [hhandled]; rfl) henqueued hP

/-- The turn of another client. -/
theorem Stage.other (h : Stage v P (handledBy (s.clients j).conn s.trace)
      (enqueuedTo (s.clients j).conn s.trace))
    (hr : Reachable s) (hturn : TakesTurn s t i turn)
    (hu : Undisturbed v (s.clients j).conn s t) (hl : (s.clients j).Live) (hne : j ≠ i) :
    Visit v P (s.clients j).conn t := by
  have hconn : turn.conn ≠ (s.clients j).conn := fun heq =>
    hne ((numbered hr.moveReachable).unique i j hturn.live hl (hturn.conn.symm.trans heq)).symm
  have hhandled := hturn.handledBy_eq (s.clients j).conn
  rw [if_neg hconn, List.append_nil] at hhandled
  have henqueued := hturn.enqueuedTo_eq (s.clients j).conn
  rcases hturn.outputTo_stranger hr hne hl (h.alone hr hl) with
    ⟨frame, text, hreq, hdm⟩ | ⟨hnone, inbuf, out, queuedBytes, hclient⟩
  · obtain ⟨hquery, hroom⟩ := hu.waits i turn frame j text hturn hreq hdm rfl
    obtain ⟨w, hserves⟩ := hturn.serves hr hreq
    have hv := (namesOk hr.moveReachable).emit (.handled (s.clients i).conn frame)
    have hdm' : AcceptsDm (s.emit (.handled (s.clients i).conn frame)) i frame j text :=
      ⟨hdm.dm, hdm.registered, hdm.found⟩
    have hw := hserves.handled.trans (handleFrame_of_acceptsDm hv hdm')
    have hroom' : Accepts (s.emit (.handled (s.clients i).conn frame)) j
        (dmPayload ((s.emit (.handled (s.clients i).conn frame)).clients i) text) := hroom
    rw [if_pos hroom', enqueueOrDisconnect_of_accepts hroom'] at hw
    obtain ⟨inbuf, hclient⟩ := hserves.clients j
    have hkept : (w.clients j).fd = (s.clients j).fd ∧ (w.clients j).conn = (s.clients j).conn := by
      rw [hw, safeEnqueueText, enqueueOrDisconnect_clients_of_ne _ _ hne, countDm,
        Server.setStats_clients, pushFrame_clients, Function.update_self]
      exact ⟨rfl, rfl⟩
    refine .here (j := j) ?_ ?_ ?_
    · rw [hclient, Client.Live]
      exact hkept.1.symm ▸ hl
    · rw [hclient]
      exact hkept.2
    · rw [hhandled, henqueued]
      exact h.append hquery _
  · refine .here (j := j) ?_ ?_ ?_
    · rw [hclient]
      exact hl
    · rw [hclient]
    · rw [hhandled, henqueued, hnone, List.append_nil]
      exact h

/-- A connection that has had a turn was numbered. -/
theorem Numbered.le_of_handledBy (hs : Numbered s) (h : handledBy k s.trace ≠ []) :
    k ≤ s.stats.totalConnections := by
  by_contra hnew
  exact h (flatMap_eq_nil_of_not_mentions (fun _ => Effect.handledBy_of_not_mentions)
    (hs.not_mentions (not_le.mp hnew)))

/-- **A step keeps a visit that it does not disturb**, and the answer to the query is made in the
state before the turn of the query. -/
theorem Visit.step (hs : Visit v P k s) (hr : Reachable s) (h : Step s t)
    (hu : Undisturbed v k s t)
    (hreceived : receivedBy k t.trace <+: cwFraming.encodeAll v.script)
    (hanswer : ∀ answer, queryAnswer s v.type = some answer → P' ⟨answer.1.toByte, answer.2⟩)
    (hP : ∀ f, P f → P' f) : Visit v P' k t := by
  obtain ⟨es, hes⟩ := h.trace_prefix
  have hbefore : receivedBy k s.trace <+: cwFraming.encodeAll v.script := by
    rw [← hes, receivedBy, List.flatMap_append] at hreceived
    exact (List.prefix_append ..).trans hreceived
  cases hs with
  | @here j hl hk hstage =>
    subst hk
    have hstage := hstage.mono hP
    rcases h.turn_or_stays hl fun reason => hu.stays j reason hl rfl with
      ⟨i, turn, hturn⟩ | ⟨hquiet, hlive, hconn⟩
    · rcases eq_or_ne j i with rfl | hne
      · refine hstage.own hr hturn hu hl ?_ (fun hnone => ?_) hanswer
        · exact ((inputOk (Transition.Reachable.step hr h)).handled _).trans
            (StreamDecoder.Codec.parse_prefix v.valid_script hreceived)
        · have hbad := hturn.request
          rw [hnone] at hbad
          exact (inputOk hr).head_ne_bad hl v.valid_script hbefore hbad
      · exact hstage.other hr hturn hu hl hne
    · refine .here hlive hconn ?_
      rw [handledBy_of_silent hquiet, enqueuedTo_of_silent hquiet]
      exact hstage
  | @gone answer dms hclosed hhandled henqueued hanswered =>
    have hn := numbered hr.moveReachable
    have hle : k ≤ s.stats.totalConnections := hn.le_of_handledBy (hhandled.symm ▸ List.cons_ne_nil _ _)
    refine @Visit.gone v P' k t answer dms (fun i hl hk => ?_) ?_ ?_ (hP _ hanswered)
    · rcases h.live_before hl with ⟨hl', hconn⟩ | hnew
      · exact hclosed i hl' (hconn.symm.trans hk)
      · omega
    · rw [← hhandled]
      rcases h.quiet_or_turn with hquiet | ⟨i, turn, hturn⟩
      · exact handledBy_of_silent hquiet k
      · rw [hturn.handledBy_eq, if_neg fun hk => hclosed i hturn.live (hturn.conn.symm.trans hk),
          List.append_nil]
    · rw [h.enqueuedTo_of_closed hclosed, henqueued]

/-- **What a visitor is told first and second.** -/
theorem Visit.told (hs : Visit v P k s) :
    (∀ f, (enqueuedTo k s.trace)[0]? = some f → f = greeting) ∧
      ∀ f, (enqueuedTo k s.trace)[1]? = some f → P f := by
  have htold : ∀ {answer : Frame} {dms : List Frame}, P answer →
      (∀ f, (greeting :: answer :: dms)[0]? = some f → f = greeting) ∧
        ∀ f, (greeting :: answer :: dms)[1]? = some f → P f :=
    fun hanswer => ⟨fun f hf => (Option.some.inj hf).symm, fun f hf => Option.some.inj hf ▸ hanswer⟩
  cases hs with
  | here _ _ hstage =>
    generalize handledBy k s.trace = handled at hstage
    generalize enqueuedTo k s.trace = enqueued at hstage
    cases hstage with
    | arrived => exact ⟨nofun, nofun⟩
    | greeted => exact ⟨fun f hf => (Option.some.inj hf).symm, nofun⟩
    | answered hanswer => exact htold hanswer
  | gone _ _ henqueued hanswer =>
    rw [henqueued]
    exact htold hanswer

/-- **A visitor leaves the others alone**, whether it is refused or not. -/
theorem TakesTurn.spares_of_visitor (hr : Reachable s) (h : TakesTurn s t i turn)
    (hreq : turn.request = some frame) (hscript : frame ∈ v.script) (hne : j ≠ i) :
    t.clients j = s.clients j := by
  obtain ⟨n, hhead⟩ : ∃ n, frameHead cwMaxPayloadSize (s.clients i).inbuf = .item frame n := by
    have hrequest := h.request
    rwa [hreq] at hrequest
  have htype : frame.type ∈ [ClientMsgType.hello.toByte, ClientMsgType.list.toByte,
      ClientMsgType.stats.toByte, ClientMsgType.quit.toByte] := by
    simp only [Visitor.script, List.mem_cons, List.not_mem_nil, or_false] at hscript ⊢
    rcases hscript with rfl | rfl | rfl
    · exact .inl v.hello_type
    · rcases v.type_mem with hlist | hstats
      · exact .inr (.inl (congrArg ClientMsgType.toByte hlist))
      · exact .inr (.inr (.inl (congrArg ClientMsgType.toByte hstats)))
    · exact .inr (.inr (.inr rfl))
  have hother : ∀ {type : ClientMsgType}, type ∉ [ClientMsgType.hello, .list, .stats, .quit] →
      frame.type ≠ type.toByte := by
    intro type hnot heq
    rw [heq] at htype
    simp only [List.mem_cons, List.not_mem_nil, or_false, ClientMsgType.toByte_inj] at htype hnot
    exact hnot htype
  have hc := (channelsOk hr.moveReachable).emit (.handled (s.clients i).conn frame)
  have hv := (namesOk hr.moveReachable).emit (.handled (s.clients i).conn frame)
  have hsame := (handleFrame_ending hc hv i frame).others (j := j) hc h.live
    (fun _ _ hsay => hother (by decide) hsay.say) (fun _ _ hdm => hother (by decide) hdm.dm)
    (fun _ hnick _ => absurd hnick (hother (by decide))) hne
  rw [h.step, drainTurn_eq, hhead]
  show (serveFrame s i frame n).2.clients j = _
  unfold serveFrame
  simp only
  split_ifs with hlive
  · exact (Server.setClient_of_ne hne).trans hsame
  · exact hsame

end Visit

end Core
end ChannelWire
