import ChannelWire.Foundation.FifoPairing
import ChannelWire.Gateway.Runs

/-!
# Direct messages and their acknowledgements

A session keeps the direct messages it forwarded in `pending_dms`, and pops the queue at every
`OK direct message sent` and at every `ERROR`.  The rows it stores at an `OK` are right if the
replies at which it pops are those to its direct messages, in order, and each direct message has
one; then `pending_dms` is the queue of `FifoPairing`.

Two things can go wrong, and `PairingSafe` says that an event is neither of them: the core leaves a
direct message without a reply (`Core.DmRefused`), or the session reads an `ERROR` that answers
another command while a direct message pends.
-/

namespace ChannelWire
namespace Gateway

open FifoPairing

/-- What `message == "direct message sent"` tests. -/
theorem decodeReplace_eq_sentText {payload : Bytes} :
    Utf8.decodeReplace payload = py "direct message sent" ↔ payload = Core.sentText := by
  have hascii : ∀ b ∈ Core.sentText, b.toNat < 0x80 := by decide +kernel
  exact Utf8.decodeReplace_eq_iff hascii

namespace Session

/-- The direct messages the session wrote: the frame, the target and the text. -/
def dms (x : Session) : List (Frame × PyStr × PyStr) :=
  x.sent.filterMap fun c => c.dm.map (c.frame, ·)

/-- The rows the session stored from `pending_dms`. -/
def ownRows (x : Session) : List Message := (x.stored.filter Stored.own).map Stored.row

/-- Both tasks of the session run. -/
def Running (x : Session) : Prop := x.phase = .running ∧ x.reading = true ∧ x.writing = true

/-- How many replies the session read. -/
def replies (x : Session) : ℕ := (x.reads.filter Core.isReply).length

/-- The row of a direct message that was acknowledged. -/
def acknowledged (username : PyStr) (p : (Frame × PyStr × PyStr) × Core.Answer) : Option Message :=
  if p.2.reply = Core.okSent then some ⟨.dm, username, none, some p.1.2.1, p.1.2.2⟩ else none

/-! ## One round of `pump_core_to_ws` -/

/-- What a round does to `pending_dms` and to the rows stored from it. -/
inductive Pops (x y : Session) (frame : Frame) : Prop where
  | store (target text : PyStr) : frame = Core.okSent →
      x.pendingDms = (target, text) :: y.pendingDms →
      y.ownRows = x.ownRows ++ [⟨.dm, x.username.name, none, some target, text⟩] →
      Pops x y frame
  | drop : frame.type = ServerMsgType.error.toByte → y.pendingDms = x.pendingDms.tail →
      y.ownRows = x.ownRows → Pops x y frame
  | skip : (frame = Core.okSent → x.pendingDms = []) →
      frame.type ≠ ServerMsgType.error.toByte → y.pendingDms = x.pendingDms →
      y.ownRows = x.ownRows → Pops x y frame

theorem save_ownRows {x : Session} {index : ℕ} {tx : Transaction} {own : Bool}
    {event : GatewayEvent} (hr : (x.save index tx own event).1.reading = true) :
    (x.save index tx own event).1.pendingDms = x.pendingDms ∧
      (x.save index tx own event).1.ownRows =
        x.ownRows ++ if own = true then tx.added.messages else [] := by
  unfold save at hr ⊢
  cases hcommit : tx.commit with
  | none =>
    rw [hcommit] at hr
    cases hr
  | some db =>
    refine ⟨rfl, ?_⟩
    show ((x.stored ++ _).filter _).map _ = _
    rw [List.filter_append, List.map_append]
    refine congrArg (x.ownRows ++ ·) ?_
    cases own with
    | true => simp [List.filter_map, Function.comp_def]
    | false => simp [List.filter_map, Function.comp_def]

/-- **`pump_core_to_ws` pops the queue at the acknowledgement of a direct message and at an
`ERROR`**, as long as the task goes on. -/
theorem pumpCoreToWs_pops {active : PyStr → ℕ} {db : Database} {x : Session} {frame : Frame}
    (hr : (x.pumpCoreToWs active db frame).1.reading = true) :
    Pops x (x.pumpCoreToWs active db frame).1 frame := by
  unfold pumpCoreToWs at hr ⊢
  simp only at hr ⊢
  cases hevent : gatewayEvent frame with
  | error e =>
    rw [hevent] at hr
    cases hr
  | ok event =>
    have hof := gatewayEvent_of hevent
    rw [hevent] at hr
    have hokSent : ∀ {type : ServerMsgType}, frame.type = type.toByte → type ≠ .ok →
        frame ≠ Core.okSent := by
      intro type htype hne heq
      have hok : ServerMsgType.ok.toByte = type.toByte := by
        rw [← htype, heq]
        rfl
      exact hne (ServerMsgType.toByte_inj.mp hok).symm
    have hskip : ∀ {type : ServerMsgType} {y : Session}, frame.type = type.toByte → type ≠ .ok →
        type ≠ .error → y.pendingDms = x.pendingDms ∧ y.ownRows = x.ownRows → Pops x y frame := by
      rintro type y htype hok herror ⟨hpending, hrows⟩
      refine .skip (fun h => absurd h (hokSent htype hok)) ?_ hpending hrows
      rw [htype]
      exact fun h => herror (ServerMsgType.toByte_inj.mp h)
    cases event with
    | chat channel sender text =>
      simp only at hr ⊢
      split_ifs at hr ⊢ with hown
      · obtain ⟨hpending, hrows⟩ := save_ownRows hr
        exact hskip hof.1 nofun nofun ⟨hpending, hrows.trans (List.append_nil _)⟩
      · exact hskip hof.1 nofun nofun ⟨rfl, rfl⟩
    | dm sender text =>
      simp only at hr ⊢
      split_ifs at hr ⊢ with hoffline
      · obtain ⟨hpending, hrows⟩ := save_ownRows hr
        exact hskip hof.1 nofun nofun ⟨hpending, hrows.trans (List.append_nil _)⟩
      · exact hskip hof.1 nofun nofun ⟨rfl, rfl⟩
    | ok message =>
      obtain ⟨htype, rfl⟩ := hof
      have hne : frame.type ≠ ServerMsgType.error.toByte := by
        rw [htype]
        exact fun h => nomatch ServerMsgType.toByte_inj.mp h
      simp only at hr ⊢
      split_ifs at hr ⊢ with hsent
      · have hframe : frame = Core.okSent :=
          Frame.ext htype (decodeReplace_eq_sentText.mp hsent)
        cases hpending : x.pendingDms with
        | nil => exact .skip (fun _ => hpending) hne hpending.symm rfl
        | cons dm rest =>
          obtain ⟨target, text⟩ := dm
          rw [hpending] at hr
          simp only at hr
          obtain ⟨hrest, hrows⟩ := save_ownRows hr
          refine .store target text hframe ?_ ?_
          · rw [hpending]
            simp only
            rw [hrest]
          · simp only
            rw [hrows, if_pos rfl, Transaction.saveDm_messages]
            rfl
      · refine .skip (fun h => absurd ?_ hsent) hne rfl rfl
        rw [h]
        exact decodeReplace_eq_sentText.mpr rfl
    | error message => exact .drop hof rfl rfl
    | who _ | channels _ | system _ | coreStats _ | coreStatsRaw _ =>
      exact hskip hof nofun nofun ⟨rfl, rfl⟩
    | raw messageType payload =>
      refine .skip ?_ ?_ rfl rfl
      · rintro rfl
        exact nomatch hof
      · intro h
        rw [GatewayEvent.Of, h, ServerMsgType.ofByte_toByte] at hof
        cases hof

/-! ## One round of `pump_ws_to_core` -/

theorem dms_concat {x y : Session} {c : Sent} (h : y.sent = x.sent ++ [c]) :
    y.dms = x.dms ++ c.dm.toList.map (c.frame, ·) := by
  rw [dms, h, List.filterMap_append]
  refine congrArg (x.dms ++ ·) ?_
  cases hdm : c.dm <;> simp [hdm]

end Session

/-- The direct messages of a session are what it wrote as `DM`. -/
theorem SessionOk.dms_eq {s : State} {k : ℕ} {x : Session} (hs : SessionOk s k x) :
    x.dms.map (some ·.1) = ((x.sent.map Sent.frame).map some).filter Core.isDm := by
  obtain ⟨cs, hcs, hcommands⟩ := hs.sent
  have hhello : Core.isDm (some (helloFrame x.username)) = false := rfl
  rw [Session.dms, hcs, List.filterMap_cons_none rfl, List.map_cons, List.map_cons,
    List.filter_cons_of_neg (by rw [hhello]; exact Bool.false_ne_true)]
  clear hcs
  induction cs with
  | nil => rfl
  | cons c cs ih =>
    have hrest := ih fun c' hc' => hcommands c' (List.mem_cons_of_mem c hc')
    have hiff := (hcommands c List.mem_cons_self).dm_iff
    rw [List.map_cons, List.map_cons]
    cases hdm : c.dm with
    | none =>
      rw [List.filterMap_cons_none (by rw [hdm]; rfl), hrest, List.filter_cons_of_neg]
      intro h
      rw [hdm] at hiff
      exact absurd (hiff.mpr (beq_iff_eq.mp h)) Bool.false_ne_true
    | some dm =>
      rw [List.filterMap_cons_some (by rw [hdm]; rfl), List.map_cons, hrest, List.filter_cons_of_pos]
      rw [hdm] at hiff
      exact beq_iff_eq.mpr (hiff.mp rfl)

/-- The frame of a direct message carries its target and its text. -/
theorem SessionOk.dm_frame {s : State} {k : ℕ} {x : Session} (hs : SessionOk s k x)
    {d : Frame × PyStr × PyStr} (hd : d ∈ x.dms) : d.1.type = ClientMsgType.dm.toByte ∧
      stringPayload [d.2.1, d.2.2] = .ok d.1.payload := by
  obtain ⟨cs, hcs, hcommands⟩ := hs.sent
  obtain ⟨c, hc, hmap⟩ := List.mem_filterMap.mp hd
  obtain ⟨dm, hdm, rfl⟩ := Option.map_eq_some_iff.mp hmap
  rw [hcs] at hc
  rcases List.mem_cons.mp hc with rfl | hc
  · cases hdm
  · have hcommand := hcommands c hc
    exact ⟨hcommand.dm_iff.mp (by rw [hdm]; rfl), hcommand.payload hdm⟩

/-- **The core answers the direct messages of a session in their order.** -/
theorem SessionOk.dmAnswers_prefix {s : State} {k : ℕ} {x : Session} (hs : SessionOk s k x)
    (hcore : Core.Reachable s.core) (hdms : Core.DmsReplied k s.core.trace) :
    (Core.dmAnswers k s.core.trace).map Core.Answer.request <+: x.dms.map (some ·.1) := by
  rw [(Core.turnsOk hcore).dmAnswers_request hdms, hs.dms_eq]
  exact ((hs.handled (Core.inputOk hcore)).map some).filter _

/-! ## Reading replies -/

/-- The client of the connection has a slot in the core. -/
def State.Connected (s : State) (k : ℕ) : Prop :=
  ∃ i, (s.core.clients i).Live ∧ (s.core.clients i).conn = k

/-- The next reply that the session will read, with the request it answers. -/
def State.nextAnswer (s : State) (k : ℕ) (x : Session) : Option Core.Answer :=
  (Core.answers k s.core.trace)[x.replies]?

/-- The answers to direct messages among those a session read. -/
def readDmAnswers (k : ℕ) (trace : List Core.Effect) (x : Session) : List Core.Answer :=
  ((Core.answers k trace).take x.replies).filter fun a => Core.isDm a.request

/-- The frame that is read is the reply of the next answer, if it is a reply. -/
theorem SessionOk.nextAnswer_eq {s : State} {k : ℕ} {x : Session} {frame : Frame}
    (hs : SessionOk s k x) (hcore : Core.Reachable s.core) (hnext : s.nextFrame k x = some frame)
    (hreply : Core.isReply frame = true) :
    ∃ a, s.nextAnswer k x = some a ∧ a.reply = frame := by
  have hreads := State.nextFrame_prefix (Core.outputOk (Core.Reachable.moveReachable hcore))
    hs.reads hnext
  have hpre := (Core.turnsOk hcore).replies_isPrefix hreads
  rw [List.filter_append, List.filter_cons_of_pos hreply, List.filter_nil] at hpre
  obtain ⟨rest, hrest⟩ := hpre
  have hget : ((Core.answers k s.core.trace).map Core.Answer.reply)[x.replies]? = some frame := by
    rw [← hrest, List.append_assoc, Session.replies, List.getElem?_append_right (Nat.le_refl _),
      Nat.sub_self]
    rfl
  rw [List.getElem?_map] at hget
  exact Option.map_eq_some_iff.mp hget

/-- What a session read stays the answers it read. -/
theorem readDmAnswers_congr {k : ℕ} {trace trace' : List Core.Effect} {x : Session}
    (h : Core.answers k trace <+: Core.answers k trace')
    (hle : x.replies ≤ (Core.answers k trace).length) :
    readDmAnswers k trace' x = readDmAnswers k trace x := by
  obtain ⟨rest, hrest⟩ := h
  rw [readDmAnswers, ← hrest, List.take_append_of_le_length hle]
  rfl

theorem take_of_nextAnswer {s : State} {k : ℕ} {x : Session} {a : Core.Answer}
    (hnext : s.nextAnswer k x = some a) : (Core.answers k s.core.trace).take (x.replies + 1) =
      (Core.answers k s.core.trace).take x.replies ++ [a] := by
  rw [List.take_add_one]
  exact congrArg (_ ++ Option.toList ·) hnext

/-- Another answer is read. -/
theorem readDmAnswers_succ {s : State} {k : ℕ} {x y : Session} {a : Core.Answer}
    (hnext : s.nextAnswer k x = some a) (hy : y.replies = x.replies + 1) :
    readDmAnswers k s.core.trace y = readDmAnswers k s.core.trace x ++
      if Core.isDm a.request = true then [a] else [] := by
  rw [readDmAnswers, hy, take_of_nextAnswer hnext, List.filter_append, List.filter_singleton,
    Bool.cond_eq_ite]
  rfl

/-! ## The queue of a session -/

/-- **`pending_dms` is the queue of the direct messages that were not answered yet**, and the rows
that were stored are those of the acknowledged ones. -/
def DmPairs (username : PyStr) (dms : List (Frame × PyStr × PyStr)) (answers : List Core.Answer)
    (pendingDms : List (PyStr × PyStr)) (rows : List Message) : Prop :=
  ∃ pending paired, Pairs dms answers pending paired ∧ pendingDms = pending.map Prod.snd ∧
    rows = paired.filterMap (Session.acknowledged username)

namespace DmPairs

variable {username : PyStr} {dms : List (Frame × PyStr × PyStr)} {answers : List Core.Answer}
  {pendingDms : List (PyStr × PyStr)} {rows : List Message}

theorem nil : DmPairs username [] [] [] [] := ⟨[], [], .nil, rfl, rfl⟩

/-- A command is sent. -/
theorem push (h : DmPairs username dms answers pendingDms rows) (frame : Frame)
    (dm : Option (PyStr × PyStr)) : DmPairs username (dms ++ dm.toList.map (frame, ·)) answers
      (pendingDms ++ dm.toList) rows := by
  cases dm with
  | none =>
    show DmPairs username (dms ++ []) answers (pendingDms ++ []) rows
    rw [List.append_nil, List.append_nil]
    exact h
  | some dm =>
    obtain ⟨pending, paired, hpairs, hpending, hrows⟩ := h
    refine ⟨pending ++ [(frame, dm)], paired, hpairs.push _, ?_, hrows⟩
    rw [hpending, List.map_append]
    rfl

/-- An answer is read. -/
theorem pop (h : DmPairs username dms answers pendingDms rows) (a : Core.Answer)
    (hlt : answers.length < dms.length) :
    ∃ target text rest, pendingDms = (target, text) :: rest ∧
      DmPairs username dms (answers ++ [a]) rest (rows ++ if a.reply = Core.okSent then
        [⟨.dm, username, none, some target, text⟩] else []) := by
  obtain ⟨pending, paired, hpairs, rfl, rfl⟩ := h
  obtain ⟨⟨f, target, text⟩, rest, rfl, hnew⟩ := hpairs.pop a hlt
  refine ⟨target, text, rest.map Prod.snd, rfl, rest, _, hnew, rfl, ?_⟩
  rw [List.filterMap_append]
  refine congrArg (_ ++ ·) ?_
  rw [List.filterMap_cons, Session.acknowledged]
  split_ifs <;> rfl

end DmPairs

/-! ## Runs in which nothing goes wrong -/

/-- The event leaves no direct message of a session without a reply, and no direct message pends
when a session reads an `ERROR` that answers another command. -/
def PairingSafe (s : State) : Event → Prop
  | .core t => ∀ k x, s.sessions k = some x → Core.RefusesNoDm k s.core t
  | .read k => ∀ x a, s.sessions k = some x → s.nextAnswer k x = some a →
    s.nextFrame k x = some a.reply → a.reply.type = ServerMsgType.error.toByte →
    Core.isDm a.request = true ∨ x.pendingDms = []
  | _ => True

/-- The queue and the rows of a session are as they should be while both tasks run. -/
structure PairingOk (s : State) (k : ℕ) (x : Session) : Prop where
  replied : Core.DmsReplied k s.core.trace
  pairs : x.Running → DmPairs x.username.name x.dms (readDmAnswers k s.core.trace x) x.pendingDms
    x.ownRows

/-- The answers to direct messages that were read are no more than the direct messages sent, and
fewer if another one is read. -/
theorem SessionOk.readDmAnswers_lt {s : State} {k : ℕ} {x : Session} {a : Core.Answer}
    (hs : SessionOk s k x) (hcore : Core.Reachable s.core)
    (hdms : Core.DmsReplied k s.core.trace) (hnext : s.nextAnswer k x = some a)
    (ha : Core.isDm a.request = true) :
    (readDmAnswers k s.core.trace x).length < x.dms.length := by
  have hread : readDmAnswers k s.core.trace x ++ [a] <+: Core.dmAnswers k s.core.trace := by
    have hpre := (List.take_prefix (x.replies + 1) (Core.answers k s.core.trace)).filter
      fun a => Core.isDm a.request
    rwa [take_of_nextAnswer hnext, List.filter_append, List.filter_singleton, Bool.cond_eq_ite,
      if_pos ha] at hpre
  have hle := (hs.dmAnswers_prefix hcore hdms).length_le
  rw [List.length_map, List.length_map] at hle
  have hlt := hread.length_le.trans hle
  rw [List.length_append] at hlt
  exact hlt

/-- What a session that sent no direct message read answers none. -/
theorem SessionOk.readDmAnswers_eq_nil {s : State} {k : ℕ} {x : Session} (hs : SessionOk s k x)
    (hcore : Core.Reachable s.core) (hreplied : Core.DmsReplied k s.core.trace)
    (hdms : x.dms = []) : readDmAnswers k s.core.trace x = [] := by
  have hpre := hs.dmAnswers_prefix hcore hreplied
  rw [hdms, List.map_nil, List.prefix_nil, List.map_eq_nil_iff] at hpre
  have hsub := (List.take_prefix x.replies (Core.answers k s.core.trace)).filter
    fun a => Core.isDm a.request
  rw [← Core.dmAnswers, hpre] at hsub
  exact List.prefix_nil.mp hsub

/-- A round of `pump_core_to_ws` keeps the queue. -/
theorem PairingOk.read {s : State} {k : ℕ} {x y : Session} {frame : Frame}
    (hp : PairingOk s k x) (hs : SessionOk s k x) (hcore : Core.Reachable s.core)
    (hnext : s.nextFrame k x = some frame) (hy : Session.Reads x y frame)
    (hpops : Session.Pops x y frame) (hx : x.Running)
    (hsafe : ∀ a, s.nextAnswer k x = some a → a.reply = frame →
      frame.type = ServerMsgType.error.toByte → Core.isDm a.request = true ∨ x.pendingDms = []) :
    DmPairs y.username.name y.dms (readDmAnswers k s.core.trace y) y.pendingDms y.ownRows := by
  have hpairs := hp.pairs hx
  have hdms : y.dms = x.dms := by rw [Session.dms, hy.sent]; rfl
  have hreplies : y.replies =
      x.replies + if Core.isReply frame = true then 1 else 0 := by
    rw [Session.replies, hy.reads, List.filter_append, List.length_append, List.filter_singleton]
    cases Core.isReply frame <;> rfl
  rw [hy.username, hdms]
  cases hreply : Core.isReply frame with
  | false =>
    have hread : readDmAnswers k s.core.trace y = readDmAnswers k s.core.trace x := by
      rw [readDmAnswers, hreplies, hreply]
      rfl
    rw [hread]
    cases hpops with
    | store _ _ hframe _ _ =>
      rw [hframe] at hreply
      cases hreply
    | drop htype _ _ =>
      rw [Core.isReply, htype] at hreply
      cases hreply
    | skip _ _ hpending hrows =>
      rw [hpending, hrows]
      exact hpairs
  | true =>
    rw [hreply, if_pos rfl] at hreplies
    obtain ⟨a, hnextAnswer, rfl⟩ := hs.nextAnswer_eq hcore hnext hreply
    have hread := readDmAnswers_succ hnextAnswer hreplies
    have hmem : a ∈ Core.answers k s.core.trace := List.mem_of_getElem? hnextAnswer
    obtain ⟨hsent, hanswer⟩ := (Core.turnsOk hcore).of_mem_answers hmem
    cases hdm : Core.isDm a.request with
    | true =>
      rw [hdm, if_pos rfl] at hread
      obtain ⟨target, text, rest, hpending, hnew⟩ :=
        hpairs.pop a (hs.readDmAnswers_lt hcore hp.replied hnextAnswer hdm)
      rw [hread]
      cases hpops with
      | store target' text' hframe hpending' hrows =>
        rw [hpending', List.cons.injEq, Prod.mk.injEq] at hpending
        obtain ⟨⟨rfl, rfl⟩, rfl⟩ := hpending
        rw [if_pos hframe] at hnew
        rw [hrows]
        exact hnew
      | drop htype hrest hrows =>
        have hne : a.reply ≠ Core.okSent := by
          intro heq
          rw [heq] at htype
          cases htype
        rw [if_neg hne, List.append_nil] at hnew
        rw [hrest, hrows, hpending]
        exact hnew
      | skip hnil hne _ _ =>
        rcases hanswer hdm with hok | herror
        · rw [hnil hok] at hpending
          cases hpending
        · exact absurd herror hne
    | false =>
      rw [hdm, if_neg Bool.false_ne_true, List.append_nil] at hread
      rw [hread]
      cases hpops with
      | store _ _ hframe _ _ =>
        have hdm' := hsent hframe
        rw [hdm] at hdm'
        cases hdm'
      | drop htype hrest hrows =>
        have hnil : x.pendingDms = [] := by
          rcases hsafe a hnextAnswer rfl htype with hdm' | hnil
          · rw [hdm] at hdm'
            cases hdm'
          · exact hnil
        rw [hnil] at hrest hpairs
        rw [hrest, hrows]
        exact hpairs
      | skip _ _ hpending hrows =>
        rw [hpending, hrows]
        exact hpairs

/-- The core did not open the connection in this step, so it was open before. -/
theorem State.Connected.before {s t : State} {k : ℕ} (h : t.Connected k)
    (hcore : Core.Reachable s.core) (hstep : Core.Step s.core t.core)
    (haccepted : .accepted k ∈ s.core.trace) : s.Connected k := by
  obtain ⟨i, hi, hk⟩ := h
  rcases hstep.live_before hi with ⟨hl, hconn⟩ | hnew
  · exact ⟨i, hl, hconn.symm.trans hk⟩
  · have hle := (Core.numbered (Core.Reachable.moveReachable hcore)).mentions_le _ haccepted k rfl
    omega

/-- A session that was just opened has sent no direct message. -/
theorem SessionOk.dmsReplied {s : State} {k : ℕ} {x : Session} (hs : SessionOk s k x)
    (hcore : Core.Reachable s.core) (hdms : x.dms = []) : Core.DmsReplied k s.core.trace := by
  intro turn hturn hk hdm
  have hnone : ∀ f ∈ Core.handledBy k s.core.trace, Core.isDm (some f) = false := by
    intro f hf
    have hpre := ((hs.handled (Core.inputOk hcore)).map some).filter Core.isDm
    rw [← hs.dms_eq, hdms, List.map_nil, List.prefix_nil, List.filter_eq_nil_iff] at hpre
    exact Bool.eq_false_iff.mpr (hpre (some f) (List.mem_map_of_mem hf))
  cases hreq : turn.request with
  | none =>
    rw [hreq] at hdm
    cases hdm
  | some f =>
    have hf : f ∈ Core.handledBy k s.core.trace := by
      rw [(Core.turnsOk hcore).handled]
      exact List.mem_flatMap.mpr ⟨turn, hturn, by rw [if_pos hk, hreq]; exact List.mem_singleton_self f⟩
    rw [hreq, hnone f hf] at hdm
    cases hdm

theorem PairingOk.step {s t : State} {e : Event} {k : ℕ} {y : Session}
    (hr : Reachable PairingSafe s)
    (hp : ∀ k x, s.sessions k = some x → s.Connected k → PairingOk s k x)
    (hsafe : PairingSafe s e) (h : Step s e t) (hy : t.sessions k = some y)
    (hk : t.Connected k) : PairingOk t k y := by
  have hcore := Reachable.core hr
  have hok : SessionOk t k y := sessionOk (.step hr ⟨e, hsafe, h⟩) hy
  rcases h.core_cases with ⟨rfl, hstep, hsame, -⟩ | heq
  · rw [hsame] at hy
    have hs := sessionOk hr hy
    have hx := hp k y hy (hk.before hcore hstep hs.accepted)
    obtain ⟨j, hj, hconn⟩ := hk
    refine ⟨hx.replied.step hcore hstep hj hconn (hsafe k y hy), fun hrun => ?_⟩
    rw [readDmAnswers_congr (hstep.answers_prefix k)]
    · exact hx.pairs hrun
    · have hle := ((Core.turnsOk hcore).replies_isPrefix hs.reads).length_le
      rwa [List.length_map] at hle
  · have hk' : s.Connected k := by
      rw [State.Connected, ← heq]
      exact hk
    have hreach : Core.Reachable t.core := heq ▸ hcore
    cases h.becomes hy with
    | idle hx =>
      have hx := hp k y hx hk'
      exact ⟨heq ▸ hx.replied, fun hrun => heq ▸ hx.pairs hrun⟩
    | connect _ _ _ => exact ⟨hok.dmsReplied hreach rfl, fun hrun => nomatch hrun.1⟩
    | @registered x frame hx hphase _ =>
      have hfresh := (sessionOk hr hx).fresh hphase
      have hkept : (x.registered frame).dms = [] ∧ (x.registered frame).pendingDms = [] ∧
          (x.registered frame).ownRows = [] := by
        rw [hfresh]
        unfold Session.registered
        simp only
        split_ifs <;> exact ⟨rfl, rfl, rfl⟩
      obtain ⟨hdms, hpending, hrows⟩ := hkept
      have hreplied : Core.DmsReplied k t.core.trace := hok.dmsReplied hreach hdms
      refine ⟨hreplied, fun _ => ?_⟩
      rw [hdms, hpending, hrows, hok.readDmAnswers_eq_nil hreach hreplied hdms]
      exact .nil
    | @read x frame hx hphase hreading hnext =>
      have hs := sessionOk hr hx
      have hpx := hp k x hx hk'
      have hreads := Session.pumpCoreToWs_reads s.active s.db x frame
      refine ⟨heq ▸ hpx.replied, fun hrun => ?_⟩
      rw [heq]
      refine hpx.read hs hcore hnext hreads (Session.pumpCoreToWs_pops hrun.2.1)
        ⟨hreads.phase ▸ hrun.1, hreading, hreads.writing ▸ hrun.2.2⟩ fun a hnextAnswer ha htype => ?_
      exact hsafe x a hx hnextAnswer (ha ▸ hnext) (ha ▸ htype)
    | @command x loaded hx hphase hwriting =>
      have hpx := hp k x hx hk'
      have hwrites := Session.pumpWsToCore_writes s.db x loaded
      refine ⟨heq ▸ hpx.replied, fun hrun => ?_⟩
      have hpairs := hpx.pairs ⟨hwrites.phase ▸ hrun.1, hwrites.reading ▸ hrun.2.1, hwriting⟩
      have hread : readDmAnswers k t.core.trace (x.pumpWsToCore s.db loaded).1 =
          readDmAnswers k s.core.trace x := by
        rw [heq, readDmAnswers, Session.replies, hwrites.reads]
        rfl
      have hrows : (x.pumpWsToCore s.db loaded).1.ownRows = x.ownRows := by
        rw [Session.ownRows, hwrites.stored]
        rfl
      rw [hread, hrows, hwrites.username]
      rcases hwrites.sent with ⟨hsent, hpending⟩ | ⟨c, -, hsent, hpending⟩
      · have hdms : (x.pumpWsToCore s.db loaded).1.dms = x.dms := by
          rw [Session.dms, hsent]
          rfl
        rw [hpending hrun.2.2, hdms]
        exact hpairs
      · rw [hpending, Session.dms_concat hsent]
        exact hpairs.push c.frame c.dm
    | abandoned hx _ _ _ | finish hx =>
      exact ⟨heq ▸ (hp k _ hx hk').replied, fun hrun => nomatch hrun.1⟩
    | halt hx _ => exact ⟨heq ▸ (hp k _ hx hk').replied, fun hrun => nomatch hrun.2.1⟩

theorem pairingOk {s : State} (h : Reachable PairingSafe s) {k : ℕ} {x : Session}
    (hx : s.sessions k = some x) (hk : s.Connected k) : PairingOk s k x := by
  refine Transition.Reachable.invariant
    (P := fun s => ∀ k x, s.sessions k = some x → s.Connected k → PairingOk s k x)
    ?_ ?_ h k x hx hk
  · rintro s ⟨-, hnone, -⟩ k x hx
    rw [hnone] at hx
    cases hx
  · rintro s t hr hs ⟨e, hsafe, hst⟩ k y hy hk
    exact PairingOk.step hr hs hsafe hst hy hk

/-! ## Two runs -/

/-- A message that is answered with an `ERROR` where no channel was joined. -/
def sayNothing : Dict := [(py "type", .string (py "say")), (py "text", .string (py "hi"))]

/-- She does so right after a message that is answered with an `ERROR`. -/
def dmAfterSay : List Op := aliceOnline ++ [.command 1 (.ok (.object sayNothing)),
  .command 1 (.ok (.object dmMyself)), .deliver 0 ⟨5, stringField (ascii "hi")⟩,
  .deliver 0 dmMyselfFrame, .flush 0, .flush 0, .flush 0, .read 1, .read 1, .read 1]

/-- The core has one client at most. -/
def Alone (s : Core.Server) : Prop := ∀ i, (s.clients i).Live → i = 0

instance (s : Core.Server) : Decidable (Alone s) := by
  unfold Alone
  infer_instance

/-- A condition on operations under which their events are `PairingSafe`. -/
def SafeOp (s : State) : Op → Prop
  | .connect _ _ | .flush _ => Alone s.core
  | .deliver i frame => Alone s.core ∧ Alone (Core.recvChunk s.core i frame.encode)
  | .read k => ∀ x ∈ s.sessions k, ∀ a ∈ s.nextAnswer k x, a.reply.type =
    ServerMsgType.error.toByte → Core.isDm a.request = true ∨ x.pendingDms = []
  | .command _ _ | .finish _ _ | .halt _ => True

instance (s : State) : (op : Op) → Decidable (SafeOp s op)
  | .connect _ _ | .flush _ => inferInstanceAs (Decidable (Alone _))
  | .deliver _ _ => inferInstanceAs (Decidable (Alone _ ∧ Alone _))
  | .read k => inferInstanceAs (Decidable (∀ x ∈ s.sessions k, ∀ a ∈ s.nextAnswer k x, _))
  | .command _ _ | .finish _ _ | .halt _ => inferInstanceAs (Decidable True)

theorem pairingSafe_of_alone {s : State} (h : Alone s.core) (t : Core.Server) :
    PairingSafe s (.core t) := by
  rintro k x - i frame n hl - - - ⟨-, -, target, text, j, -, hfind, hne, -⟩
  have hj := (Core.findUser_eq_some hfind).1
  exact hne ((h j hj).trans (h i hl).symm)

theorem admitted_of_safeOp (s : State) (op : Op) (h : SafeOp s op) :
    Admitted PairingSafe s op := by
  cases op with
  | connect fd u => exact ⟨pairingSafe_of_alone h _, trivial⟩
  | deliver i frame => exact ⟨pairingSafe_of_alone h.1 _, pairingSafe_of_alone (s := s.setCore _) h.2 _⟩
  | flush i => exact pairingSafe_of_alone h _
  | read k => exact fun x a hx ha _ => h x hx a ha
  | command _ _ | finish _ _ | halt _ => trivial

theorem reachable_dmOnly : Reachable PairingSafe (start.run dmOnly) :=
  reachable_of_schedule (by decide +kernel) (.mono admitted_of_safeOp (by decide +kernel))

/-! ## Pairing -/

/-- **Acknowledgements are paired with the right direct messages.**  In every run whose events are
all `PairingSafe`, once a session of which both tasks run, and whose connection the core keeps, has
read everything that was enqueued to it: the answers to its direct messages are those to the first
ones it sent, one each and in order; the rows stored from `pending_dms` are, in order, one for each
that was answered with `OK direct message sent`, with its own target and text; and `pending_dms`
holds the others. -/
theorem dm_rows_of_acknowledged {s : State} (h : Reachable PairingSafe s) {k : ℕ} {x : Session}
    (hx : s.sessions k = some x) (hrun : x.Running) (hk : s.Connected k)
    (hread : x.reads = Core.enqueuedTo k s.core.trace) :
    (∀ d ∈ x.dms, d.1.type = ClientMsgType.dm.toByte ∧
      stringPayload [d.2.1, d.2.2] = .ok d.1.payload) ∧
    (Core.dmAnswers k s.core.trace).map Core.Answer.request <+: x.dms.map (some ·.1) ∧
    x.ownRows = (x.dms.zip (Core.dmAnswers k s.core.trace)).filterMap
      (Session.acknowledged x.username.name) ∧
    x.pendingDms = (x.dms.drop (Core.dmAnswers k s.core.trace).length).map Prod.snd := by
  have hcore := Reachable.core h
  have hs := sessionOk h hx
  have hp := pairingOk h hx hk
  have hall : readDmAnswers k s.core.trace x = Core.dmAnswers k s.core.trace := by
    have hlen := congrArg List.length ((Core.turnsOk hcore).answers_reply k)
    rw [List.length_map] at hlen
    rw [readDmAnswers, Session.replies, hread, ← hlen, List.take_length]
    rfl
  obtain ⟨pending, paired, hpairs, hpending, hrows⟩ := hp.pairs hrun
  rw [hall] at hpairs
  refine ⟨fun d hd => hs.dm_frame hd, hs.dmAnswers_prefix hcore hp.replied, ?_, ?_⟩
  · rw [hrows, hpairs.paired_eq]
  · rw [hpending, hpairs.pending_eq]

theorem dm_rows_of_acknowledged_dmOnly : ∃ x, (start.run dmOnly).sessions 1 = some x ∧
    x.ownRows = [⟨.dm, alice.name, none, some alice.name, py "hi"⟩] ∧
    x.ownRows = (x.dms.zip (Core.dmAnswers 1 (start.run dmOnly).core.trace)).filterMap
      (Session.acknowledged x.username.name) := by
  obtain ⟨x, hx, hphase, hreading, hwriting, hread, hrows⟩ :
      ∃ x ∈ (start.run dmOnly).sessions 1, x.phase = .running ∧ x.reading = true ∧
        x.writing = true ∧ x.reads = Core.enqueuedTo 1 (start.run dmOnly).core.trace ∧
        x.ownRows = [⟨.dm, alice.name, none, some alice.name, py "hi"⟩] := by decide +kernel
  have hconnected : (start.run dmOnly).Connected 1 := ⟨0, by decide +kernel, by decide +kernel⟩
  exact ⟨x, hx, hrows, (dm_rows_of_acknowledged reachable_dmOnly hx ⟨hphase, hreading, hwriting⟩
    hconnected hread).2.2.1⟩

/-- An `ERROR` for another command makes the session forget a direct message, and the row of an
acknowledged direct message is not stored. -/
theorem acknowledged_dm_not_stored : ¬ ∀ s, Reachable (fun _ _ => True) s →
    ∀ k x, s.sessions k = some x → x.Running → s.Connected k →
      (∀ c ∈ x.sent, c.frame.type ≠ ClientMsgType.nick.toByte ∧
        c.frame.type ≠ ClientMsgType.quit.toByte) →
      x.reads = Core.enqueuedTo k s.core.trace →
      x.ownRows = (x.dms.zip (Core.dmAnswers k s.core.trace)).filterMap
        (Session.acknowledged x.username.name) := by
  intro h
  obtain ⟨x, hx, hphase, hreading, hwriting, hsent, hread, hrows⟩ :
      ∃ x ∈ (start.run dmAfterSay).sessions 1, x.phase = .running ∧ x.reading = true ∧
        x.writing = true ∧ (∀ c ∈ x.sent, c.frame.type ≠ ClientMsgType.nick.toByte ∧
          c.frame.type ≠ ClientMsgType.quit.toByte) ∧
        x.reads = Core.enqueuedTo 1 (start.run dmAfterSay).core.trace ∧
        x.ownRows ≠ (x.dms.zip (Core.dmAnswers 1 (start.run dmAfterSay).core.trace)).filterMap
          (Session.acknowledged x.username.name) := by decide +kernel
  exact hrows (h _ (reachable_of_legal (by decide +kernel)) 1 x hx ⟨hphase, hreading, hwriting⟩
    ⟨0, by decide +kernel, by decide +kernel⟩ hsent hread)

end Gateway
end ChannelWire
