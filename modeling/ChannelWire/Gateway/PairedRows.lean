import ChannelWire.Gateway.Acknowledgements

/-!
# The rows of paired direct messages

`PairingOk` is about sessions of which both tasks run and whose connection the core keeps.  A row
stays when the session is over, and a session may still read what was enqueued before its connection
was closed.  So `RowsPaired` says for every session of a run whose events are all `PairingSafe`, at
any time: each row that was stored from `pending_dms` is that of the direct message whose
acknowledgement was read (`ownRow_of_ack`).

The answers that were read stay the answers to the first direct messages also when the connection is
closed (`Core.DmsInOrder`), so the queue holds the others, and what an end of `pump_ws_to_core` left
behind them.
-/

namespace ChannelWire
namespace Gateway

open Labelling

variable {s t : State} {e : Event} {k n : ℕ} {x y : Session} {frame : Frame}

/-- The row is that of the direct message that the reply it was stored at answers. -/
def OfAnswer (k : ℕ) (trace : List Core.Effect) (x : Session) (r : Stored) : Prop :=
  ∃ d ∈ x.dms, r.row = ⟨.dm, x.username.name, none, some d.2.1, d.2.2⟩ ∧
    x.reads[r.index]? = some Core.okSent ∧ ∃ a : Core.Answer,
      (Core.answers k trace)[(x.reads.take r.index).countP Core.isReply]? = some a ∧
        a.request = some d.1

theorem OfAnswer.mono {trace trace' : List Core.Effect} {r : Stored} (h : OfAnswer k trace x r)
    (husername : y.username = x.username) (hreads : x.reads <+: y.reads) (hdms : x.dms <+: y.dms)
    (htrace : Core.answers k trace <+: Core.answers k trace') : OfAnswer k trace' y r := by
  obtain ⟨d, hd, hrow, hread, a, ha, hreq⟩ := h
  refine ⟨d, hdms.subset hd, husername ▸ hrow, getElem?_of_isPrefix hreads hread, a, ?_, hreq⟩
  obtain ⟨rest, hrest⟩ := hreads
  rw [← hrest, List.take_append_of_le_length (List.getElem?_eq_some_iff.mp hread).1.le]
  exact getElem?_of_isPrefix htrace ha

/-- The queue and the rows of a session, while its connection is there and after. -/
structure RowsPaired (s : State) (k : ℕ) (x : Session) : Prop where
  inOrder : Core.DmsInOrder k s.core.trace
  /-- Behind the direct messages that are not answered there may be one that was not sent. -/
  pending : x.reading = true → ∃ extra, x.pendingDms =
    (x.dms.map Prod.snd).drop (readDmAnswers k s.core.trace x).length ++ extra ∧
      (x.writing = true → extra = [])
  stored : ∀ r ∈ x.stored, r.own = true → OfAnswer k s.core.trace x r

/-- The answers to direct messages that were read are those to the first ones that were sent. -/
theorem SessionOk.readDmAnswers_prefix (hs : SessionOk s k x) (hcore : Core.Reachable s.core)
    (hdms : Core.DmsInOrder k s.core.trace) :
    (readDmAnswers k s.core.trace x).map Core.Answer.request <+: x.dms.map (some ·.1) := by
  have hread : readDmAnswers k s.core.trace x <+: Core.dmAnswers k s.core.trace :=
    (List.take_prefix ..).filter _
  refine ((hread.map _).trans hdms).trans ?_
  rw [hs.dms_eq]
  exact ((hs.handled (Core.inputOk hcore)).map some).filter _

/-- The direct message that the next answer is for. -/
theorem SessionOk.dm_of_nextAnswer (hs : SessionOk s k x) (hcore : Core.Reachable s.core)
    (hdms : Core.DmsInOrder k s.core.trace) {a : Core.Answer} (hnext : s.nextAnswer k x = some a)
    (ha : Core.isDm a.request = true) :
    ∃ d, x.dms[(readDmAnswers k s.core.trace x).length]? = some d ∧ a.request = some d.1 := by
  have hread : readDmAnswers k s.core.trace x ++ [a] <+: Core.dmAnswers k s.core.trace := by
    have hpre := (List.take_prefix (x.replies + 1) (Core.answers k s.core.trace)).filter
      fun a => Core.isDm a.request
    rwa [take_of_nextAnswer hnext, List.filter_append, List.filter_singleton, Bool.cond_eq_ite,
      if_pos ha] at hpre
  have hpre : (readDmAnswers k s.core.trace x ++ [a]).map Core.Answer.request <+:
      x.dms.map (some ·.1) := by
    refine ((hread.map _).trans hdms).trans ?_
    rw [hs.dms_eq]
    exact ((hs.handled (Core.inputOk hcore)).map some).filter _
  have hget := getElem?_of_isPrefix hpre (i := (readDmAnswers k s.core.trace x).length)
    (a := a.request) (by rw [List.getElem?_map, List.getElem?_concat_length]; rfl)
  rw [List.getElem?_map] at hget
  obtain ⟨d, hd, hreq⟩ := Option.map_eq_some_iff.mp hget
  exact ⟨d, hd, hreq.symm⟩

/-- A round of `pump_core_to_ws`. -/
theorem RowsPaired.round {active : PyStr → ℕ} {db db' : Database} (hx : RowsPaired s k x)
    (hs : SessionOk s k x) (hcore : Core.Reachable s.core) (hreading : x.reading = true)
    (hnext : s.nextFrame k x = some frame) (hreads : Session.Reads x y frame)
    (hsafe : ∀ a, s.nextAnswer k x = some a → a.reply = frame →
      frame.type = ServerMsgType.error.toByte → Core.isDm a.request = true ∨ x.pendingDms = [])
    (h : Session.Round active db x frame y db') : RowsPaired s k y := by
  obtain ⟨extra, hpending, hextra⟩ := hx.pending hreading
  have hdms : y.dms = x.dms := by
    unfold Session.dms
    rw [hreads.sent]
  have hreplies : y.replies = x.replies + if Core.isReply frame = true then 1 else 0 := by
    rw [Session.replies, hreads.reads, List.filter_append, List.length_append,
      List.filter_singleton]
    cases Core.isReply frame <;> rfl
  have hold : ∀ r ∈ x.stored, r.own = true → OfAnswer k s.core.trace y r := fun r hr hown =>
    (hx.stored r hr hown).mono hreads.username (hreads.reads ▸ List.prefix_append ..)
      (hdms ▸ List.prefix_rfl) List.prefix_rfl
  have hnew : ∀ {added : Tables} {row : Message}, Session.Saves db x y db' added row false →
      ∀ r ∈ y.stored, r.own = true → OfAnswer k s.core.trace y r := by
    intro added row hsaves r hr hown
    rw [hsaves.stored] at hr
    rcases List.mem_append.mp hr with hr | hr
    · exact hold r hr hown
    · rw [List.mem_singleton.mp hr] at hown
      cases hown
  -- the queue stays, unless the frame answers a direct message
  have hkeep : (Core.isReply frame = true → ∀ a, s.nextAnswer k x = some a → a.reply = frame →
      Core.isDm a.request = false) → y.pendingDms = x.pendingDms → ∃ extra, y.pendingDms =
        (y.dms.map Prod.snd).drop (readDmAnswers k s.core.trace y).length ++ extra ∧
          (y.writing = true → extra = []) := by
    intro hother hsame
    have hread : readDmAnswers k s.core.trace y = readDmAnswers k s.core.trace x := by
      cases hreply : Core.isReply frame with
      | false =>
        rw [readDmAnswers, hreplies, hreply]
        rfl
      | true =>
        rw [hreply, if_pos rfl] at hreplies
        obtain ⟨a, hnextAnswer, hframe⟩ := hs.nextAnswer_eq hcore hnext hreply
        rw [readDmAnswers_succ hnextAnswer hreplies, hother hreply a hnextAnswer hframe,
          if_neg Bool.false_ne_true, List.append_nil]
    rw [hdms, hread, hsame, hreads.writing]
    exact ⟨extra, hpending, hextra⟩
  -- an answer to a direct message takes the head of the queue
  have hpop : ∀ a, s.nextAnswer k x = some a → a.reply = frame → Core.isReply frame = true →
      Core.isDm a.request = true → ∃ d rest, d ∈ x.dms ∧ a.request = some d.1 ∧
        x.pendingDms = d.2 :: rest ∧ ∃ extra, rest = (y.dms.map Prod.snd).drop
          (readDmAnswers k s.core.trace y).length ++ extra ∧ (y.writing = true → extra = []) := by
    intro a hnextAnswer _ hreply hdm
    rw [hreply, if_pos rfl] at hreplies
    obtain ⟨d, hd, hreq⟩ := hs.dm_of_nextAnswer hcore hx.inOrder hnextAnswer hdm
    obtain ⟨hlt, hd'⟩ := List.getElem?_eq_some_iff.mp hd
    refine ⟨d, _, List.mem_of_getElem? hd, hreq, ?_, extra, rfl, fun hw => ?_⟩
    · rw [hpending, List.drop_eq_getElem_cons (by rw [List.length_map]; exact hlt),
        List.getElem_map, hd', readDmAnswers_succ hnextAnswer hreplies, hdm, if_pos rfl,
        List.length_append, hdms]
      rfl
    · exact hextra (hreads.writing ▸ hw)
  have hnotReply : ∀ {event : GatewayEvent}, gatewayEvent frame = .ok event →
      (∃ c u m, event = .chat c u m) ∨ (∃ u m, event = .dm u m) → Core.isReply frame = false := by
    rintro event hevent (⟨c, u, m, rfl⟩ | ⟨u, m, rfl⟩)
    all_goals
      rw [Core.isReply, (gatewayEvent_of hevent).1, ServerMsgType.ofByte_toByte]
      rfl
  refine ⟨hx.inOrder, fun hgoes => ?_, ?_⟩
  · cases h with
    | raises _ hstops _ =>
      rw [hstops] at hgoes
      cases hgoes
    | text hevent hsame _ =>
      refine hkeep (fun hreply => ?_) hsame
      rw [hnotReply hevent (.inl ⟨_, _, _, rfl⟩)] at hreply
      cases hreply
    | received hevent _ hsame _ =>
      refine hkeep (fun hreply => ?_) hsame
      rw [hnotReply hevent (.inr ⟨_, _, rfl⟩)] at hreply
      cases hreply
    | acknowledged hevent hhead _ =>
      obtain rfl := gatewayEvent_eq_sent.mp hevent
      obtain ⟨a, hnextAnswer, hreply⟩ := hs.nextAnswer_eq hcore hnext rfl
      have hdm := ((Core.turnsOk hcore).of_mem_answers (List.mem_of_getElem? hnextAnswer)).1 hreply
      obtain ⟨d, rest, -, -, hqueue, hrest⟩ := hpop a hnextAnswer hreply rfl hdm
      rw [(List.cons.inj (hhead.symm.trans hqueue)).2]
      exact hrest
    | shows hevent _ _ hnone hsame _ _ =>
      cases hreply : Core.isReply frame with
      | false =>
        have hnoerror : frame.type ≠ ServerMsgType.error.toByte := by
          intro htype
          rw [Core.isReply, htype] at hreply
          cases hreply
        rw [if_neg hnoerror] at hsame
        exact hkeep (fun hreply' => by rw [hreply] at hreply'; cases hreply') hsame
      | true =>
        obtain ⟨a, hnextAnswer, hframe⟩ := hs.nextAnswer_eq hcore hnext hreply
        cases hdm : Core.isDm a.request with
        | true =>
          obtain ⟨d, rest, -, -, hqueue, hrest⟩ := hpop a hnextAnswer hframe hreply hdm
          rcases ((Core.turnsOk hcore).of_mem_answers (List.mem_of_getElem? hnextAnswer)).2 hdm
            with hok | herror
          · -- an acknowledgement finds its direct message in the queue
            have hevent' := gatewayEvent_eq_sent.mpr (hframe ▸ hok)
            have hempty := hnone (Except.ok.inj (hevent.symm.trans hevent'))
            rw [hempty] at hqueue
            cases hqueue
          · rw [if_pos (hframe ▸ herror), hqueue, List.tail_cons] at hsame
            rw [hsame]
            exact hrest
        | false =>
          refine hkeep (fun _ a' ha' _ => ?_) ?_
          · rw [← Option.some.inj (hnextAnswer.symm.trans ha')]
            exact hdm
          · rw [hsame]
            split_ifs with htype
            · rcases hsafe a hnextAnswer hframe htype with hdm' | hnil
              · rw [hdm] at hdm'
                cases hdm'
              · rw [hnil]
                rfl
            · rfl
  · cases h with
    | raises _ _ hstored => exact hstored ▸ hold
    | text _ _ hsaves => exact hnew hsaves
    | received _ _ _ hsaves => exact hnew hsaves
    | shows _ _ _ _ _ _ hstored => exact hstored ▸ hold
    | acknowledged hevent hhead hsaves =>
      intro r hr hown
      rw [hsaves.stored] at hr
      rcases List.mem_append.mp hr with hr | hr
      · exact hold r hr hown
      · obtain rfl := gatewayEvent_eq_sent.mp hevent
        obtain ⟨a, hnextAnswer, hreply⟩ := hs.nextAnswer_eq hcore hnext rfl
        have hdm :=
          ((Core.turnsOk hcore).of_mem_answers (List.mem_of_getElem? hnextAnswer)).1 hreply
        obtain ⟨d, rest, hd, hreq, hqueue, -⟩ := hpop a hnextAnswer hreply rfl hdm
        rw [List.mem_singleton.mp hr]
        refine ⟨d, hdms ▸ hd, ?_, ?_, a, ?_, hreq⟩
        · rw [hreads.username, ← (List.cons.inj (hhead.symm.trans hqueue)).1]
        · rw [hreads.reads]
          exact List.getElem?_concat_length ..
        · show (Core.answers k s.core.trace)[(y.reads.take x.reads.length).countP _]? = _
          rw [hreads.reads, List.take_left, List.countP_eq_length_filter]
          exact hnextAnswer

/-- A round of `pump_ws_to_core`. -/
theorem RowsPaired.command (hx : RowsPaired s k x) (hs : SessionOk s k x)
    (hcore : Core.Reachable s.core) (hwriting : x.writing = true)
    (h : Session.Writes x y) (hpre : x.pendingDms <+: y.pendingDms) : RowsPaired s k y := by
  have hread : readDmAnswers k s.core.trace y = readDmAnswers k s.core.trace x := by
    rw [readDmAnswers, Session.replies, h.reads]
    rfl
  have hsame : y.sent = x.sent → y.dms = x.dms := by
    intro hsent
    unfold Session.dms
    rw [hsent]
  have hdms : x.dms <+: y.dms := by
    rcases h.sent with ⟨hsent, -⟩ | ⟨c, -, hsent, -⟩
    · exact hsame hsent ▸ List.prefix_rfl
    · exact Session.dms_concat hsent ▸ List.prefix_append ..
  refine ⟨hx.inOrder, fun hreading => ?_, fun r hr hown => ?_⟩
  · obtain ⟨extra, hpending, hextra⟩ := hx.pending (h.reading ▸ hreading)
    rw [hextra hwriting, List.append_nil] at hpending
    rw [hread]
    rcases h.sent with ⟨hsent, hkept⟩ | ⟨c, -, hsent, hkept⟩
    · -- the entry of a message that could not be sent stays behind
      obtain ⟨more, hmore⟩ := hpre
      refine ⟨more, ?_, fun hw => ?_⟩
      · rw [hsame hsent, ← hpending, hmore]
      · rw [hkept hw] at hmore
        exact List.append_right_eq_self.mp hmore
    · refine ⟨[], ?_, fun _ => rfl⟩
      have hle := (hs.readDmAnswers_prefix hcore hx.inOrder).length_le
      rw [List.length_map, List.length_map] at hle
      rw [List.append_nil, hkept, Session.dms_concat hsent, List.map_append,
        List.drop_append_of_le_length (by rw [List.length_map]; exact hle), hpending]
      cases c.dm <;> rfl
  · rw [h.stored] at hr
    exact (hx.stored r hr hown).mono h.username (h.reads ▸ List.prefix_rfl) hdms List.prefix_rfl

/-- A step of the core. -/
theorem RowsPaired.core (hx : RowsPaired s k x) (hs : SessionOk s k x)
    (hcore : Core.Reachable s.core) (hstep : Core.Step s.core t.core)
    (hreplied : s.Connected k → Core.DmsReplied k s.core.trace) : RowsPaired t k x := by
  have hread : readDmAnswers k t.core.trace x = readDmAnswers k s.core.trace x := by
    refine readDmAnswers_congr (hstep.answers_prefix k) ?_
    have hle := ((Core.turnsOk hcore).replies_isPrefix hs.reads).length_le
    rwa [List.length_map] at hle
  refine ⟨hx.inOrder.step hcore hstep hreplied, fun hreading => ?_, fun r hr hown => ?_⟩
  · rw [hread]
    exact hx.pending hreading
  · exact (hx.stored r hr hown).mono rfl List.prefix_rfl List.prefix_rfl (hstep.answers_prefix k)

/-- A session that was just opened. -/
theorem SessionOk.dmsInOrder (hs : SessionOk s k x) (hcore : Core.Reachable s.core)
    (hdms : x.dms = []) : Core.DmsInOrder k s.core.trace := by
  rw [Core.DmsInOrder, (Core.turnsOk hcore).dmAnswers_request (hs.dmsReplied hcore hdms)]

/-- **The queue and the rows of every session.** -/
theorem rowsPaired (h : Reachable PairingSafe s) (hx : s.sessions k = some x) :
    RowsPaired s k x := by
  refine Transition.Reachable.invariant
    (P := fun s => ∀ k x, s.sessions k = some x → RowsPaired s k x) ?_ ?_ h k x hx
  · rintro s ⟨-, hnone, -⟩ k x hx
    rw [hnone] at hx
    cases hx
  · rintro s t hr hs ⟨e, hsafe, hst⟩ k y hy
    have hcore := Reachable.core hr
    have hok : SessionOk t k y := sessionOk (.step hr ⟨e, hsafe, hst⟩) hy
    rcases hst.core_cases with ⟨-, hstep, hsame, -⟩ | heq
    · rw [hsame] at hy
      exact (hs k y hy).core (sessionOk hr hy) hcore hstep fun hk => (pairingOk hr hy hk).replied
    · have hreach : Core.Reachable t.core := heq ▸ hcore
      -- the core stays, so what is to be shown is about the session alone
      have hcongr : ∀ {z : Session}, RowsPaired s k z → RowsPaired t k z := fun hz =>
        ⟨heq ▸ hz.inOrder, heq ▸ hz.pending, heq ▸ hz.stored⟩
      cases hst.becomes hy with
      | idle hx => exact hcongr (hs k y hx)
      | connect _ _ _ =>
        exact ⟨hok.dmsInOrder hreach rfl, fun hreading => (by cases hreading),
          fun r hr => absurd hr List.not_mem_nil⟩
      | @registered x frame hx hphase _ =>
        have hfresh := (sessionOk hr hx).fresh hphase
        have hkept : (x.registered frame).dms = [] ∧ (x.registered frame).pendingDms = [] ∧
            (x.registered frame).stored = [] := by
          rw [hfresh]
          unfold Session.registered
          simp only
          split_ifs <;> exact ⟨rfl, rfl, rfl⟩
        obtain ⟨hdms, hpending, hstored⟩ := hkept
        refine ⟨hok.dmsInOrder hreach hdms, ?_, ?_⟩
        · rw [hdms, hpending, List.map_nil, List.drop_nil]
          exact fun _ => ⟨[], rfl, fun _ => rfl⟩
        · rw [hstored]
          exact fun r hr => absurd hr List.not_mem_nil
      | abandoned hx hphase _ _ =>
        have hinOrder := (hs k _ hx).inOrder
        rw [(sessionOk hr hx).fresh hphase]
        exact hcongr ⟨hinOrder, fun hreading => (by cases hreading),
          fun r hr => absurd hr List.not_mem_nil⟩
      | @read x frame hx hphase hreading hnext =>
        refine hcongr ((hs k x hx).round (sessionOk hr hx) hcore hreading hnext
          (Session.pumpCoreToWs_reads ..) (fun a hnextAnswer ha htype => ?_)
          (Session.pumpCoreToWs_round s.active s.db x frame))
        exact hsafe x a hx hnextAnswer (ha ▸ hnext) (ha ▸ htype)
      | @command x loaded hx hphase hwriting =>
        exact hcongr ((hs k x hx).command (sessionOk hr hx) hcore hwriting
          (Session.pumpWsToCore_writes ..) (Session.pumpWsToCore_pendingDms_prefix ..))
      | @finish x cancelled hx =>
        have hok := hs k x hx
        refine hcongr ⟨hok.inOrder, fun hreading => ?_, hok.stored⟩
        obtain ⟨extra, hpending, hextra⟩ := hok.pending (Bool.and_eq_true _ _ ▸ hreading).1
        exact ⟨extra, hpending, fun hw => hextra (Bool.and_eq_true _ _ ▸ hw).1⟩
      | halt hx _ =>
        exact hcongr ⟨(hs k _ hx).inOrder, fun hreading => (by cases hreading), (hs k _ hx).stored⟩

/-- **The row that was stored at the acknowledgement of a direct message is the row of this direct
message.** -/
theorem ownRow_of_ack (h : Reachable PairingSafe s) (hx : s.sessions k = some x) {r : Stored}
    (hr : r ∈ x.stored) (hown : r.own = true)
    (hout : (Core.outputsTo k s.core.trace)[r.index]? = some (frame, n)) :
    ∃ d ∈ x.dms, r.row = ⟨.dm, x.username.name, none, some d.2.1, d.2.2⟩ ∧ frame = Core.okSent ∧
      ∃ turn, (Core.turns s.core.trace)[n]? = some turn ∧ turn.conn = k ∧
        turn.request = some d.1 := by
  have hcore := Reachable.core h
  obtain ⟨d, hd, hrow, hread, a, ha, hreq⟩ := (rowsPaired h hx).stored r hr hown
  have hget := getElem?_of_isPrefix (sessionOk h hx).reads hread
  rw [← Core.map_fst_outputsTo hcore, List.getElem?_map, hout] at hget
  obtain rfl : frame = Core.okSent := Option.some.inj hget
  obtain ⟨a', turn, ha', -, hturn, hk, hreq'⟩ := Core.answer_of_output hcore hout rfl
  obtain ⟨rest, hrest⟩ := (sessionOk h hx).reads
  rw [← hrest, List.take_append_of_le_length (List.getElem?_eq_some_iff.mp hread).1.le, ha] at ha'
  obtain rfl := Option.some.inj ha'
  exact ⟨d, hd, hrow, rfl, turn, hturn, hk, hreq'.symm.trans hreq⟩

end Gateway
end ChannelWire
