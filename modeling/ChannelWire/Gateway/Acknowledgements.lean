import ChannelWire.Core.Deliveries
import ChannelWire.Gateway.Pairing
import ChannelWire.Gateway.Rows

/-!
# Acknowledged direct messages

If the core answers every direct message of a session and refuses it nothing, the acknowledgements
that the session reads are those of its direct messages, in their order.  Then what is left in
`pending_dms` are the direct messages that were not acknowledged yet, and each row that is stored
from it is the row of the direct message whose acknowledgement was read (`ackOk`).

This holds as long as the task that reads goes on, also when the session is over.
-/

namespace ChannelWire
namespace Gateway

open Labelling

variable {s t : State} {e : Event} {k n i : ℕ} {x y : Session} {frame : Frame}
  {admits : State → Event → Prop}

/-! ## Frames of direct messages -/

/-- The gateway knows an acknowledgement by its text. -/
theorem gatewayEvent_eq_sent :
    gatewayEvent frame = .ok (.ok (py "direct message sent")) ↔ frame = Core.okSent := by
  constructor
  · intro hevent
    obtain ⟨htype, hmessage⟩ := gatewayEvent_of hevent
    exact Frame.ext htype (decodeReplace_eq_sentText.mp hmessage.symm)
  · rintro rfl
    show Except.ok (GatewayEvent.ok (Utf8.decodeReplace Core.sentText)) = _
    rw [decodeReplace_eq_sentText.mpr rfl]

/-- A `DM_RECV` that can be decoded. -/
theorem gatewayEvent_of_isDmRecv {event : GatewayEvent} (hrecv : Core.isDmRecv frame = true)
    (hevent : gatewayEvent frame = .ok event) : ∃ sender text, event = .dm sender text := by
  have htype := Core.isDmRecv_iff.mp hrecv
  unfold gatewayEvent at hevent
  rw [htype, ServerMsgType.ofByte_toByte] at hevent
  simp only at hevent
  split at hevent
  · cases hevent
  · exact ⟨_, _, (Except.ok.inj hevent).symm⟩
  · cases hevent

/-- The direct message of a `DM_RECV` was sent by a client. -/
theorem request_of_dmRecv (h : Reachable admits s) {turn : Core.Turn}
    (hturn : (Core.turns s.core.trace)[n]? = some turn) {o : ℕ × Frame} (ho : o ∈ turn.output)
    (hrecv : Core.isDmRecv o.2 = true) : ∃ f, turn.request = some f ∧
      f.type = ClientMsgType.dm.toByte ∧ f ∈ Core.handledBy turn.conn s.core.trace := by
  have hcore := Reachable.core h
  have hmem := List.mem_of_getElem? hturn
  obtain ⟨f, -, -, -, hreq, htype, -⟩ := (Core.dmOk hcore turn hmem).relayed o ho hrecv
  refine ⟨f, hreq, htype, ?_⟩
  rw [(Core.turnsOk hcore).handled]
  refine List.mem_flatMap.mpr ⟨turn, hmem, ?_⟩
  rw [if_pos rfl, hreq]
  exact List.mem_singleton_self f

/-- A session that waits for the answer to `HELLO` has sent no direct message. -/
theorem SessionOk.not_dm_of_fresh (hs : SessionOk s k x) (hcore : Core.Reachable s.core)
    (hphase : x.phase = .registering) (hframe : frame ∈ Core.handledBy k s.core.trace) :
    frame.type ≠ ClientMsgType.dm.toByte := by
  have hsent := (hs.handled (Core.inputOk hcore)).subset hframe
  rw [hs.fresh hphase] at hsent
  obtain rfl := List.mem_singleton.mp hsent
  intro htype
  exact absurd (ClientMsgType.toByte_inj.mp htype : ClientMsgType.hello = .dm) (by decide)

/-! ## The queue -/

namespace Session

/-- How many acknowledgements the session has read. -/
def acks (x : Session) : ℕ := x.reads.countP Core.isAck

/-- An end of `pump_ws_to_core` takes nothing from `pending_dms`. -/
theorem pumpWsToCore_pendingDms_prefix (db : Database) (x : Session)
    (loaded : Except ValueError Json) :
    x.pendingDms <+: (x.pumpWsToCore db loaded).1.pendingDms := by
  have hsend : ∀ (z : Session) msgType payload dm,
      (z.coreSend msgType payload dm).pendingDms = z.pendingDms := by
    intro z msgType payload dm
    unfold coreSend
    split <;> rfl
  unfold pumpWsToCore
  split
  · exact List.prefix_rfl
  · split
    · exact List.prefix_rfl
    · split
      · simp only
        split
        · exact List.prefix_rfl
        · rw [hsend]
      · simp only
        split
        · exact List.prefix_rfl
        · rw [hsend]
      · simp only
        rw [hsend]
        exact List.prefix_append ..
      · rw [hsend]
  · exact List.prefix_rfl

end Session

/-- The row is that of the direct message whose acknowledgement was read. -/
def OfAck (x : Session) (r : Stored) : Prop :=
  x.reads[r.index]? = some Core.okSent ∧ ∃ d,
    x.dms[(x.reads.take r.index).countP Core.isAck]? = some d ∧
      r.row = ⟨.dm, x.username.name, none, some d.2.1, d.2.2⟩

theorem OfAck.mono {r : Stored} (h : OfAck x r) (husername : y.username = x.username)
    (hreads : x.reads <+: y.reads) (hdms : x.dms <+: y.dms) : OfAck y r := by
  obtain ⟨hread, d, hd, hrow⟩ := h
  refine ⟨getElem?_of_isPrefix hreads hread, d, ?_, husername ▸ hrow⟩
  obtain ⟨rest, hrest⟩ := hreads
  rw [← hrest, List.take_append_of_le_length (List.getElem?_eq_some_iff.mp hread).1.le]
  exact getElem?_of_isPrefix hdms hd

/-- **The queue of a session whose direct messages are answered, and the rows stored from it.** -/
structure AckOk (x : Session) : Prop where
  /-- Behind the direct messages that are not acknowledged there may be one that was not sent. -/
  pending : x.reading = true → ∃ extra,
    x.pendingDms = (x.dms.map Prod.snd).drop x.acks ++ extra ∧ (x.writing = true → extra = [])
  stored : ∀ r ∈ x.stored, r.own = true → OfAck x r

/-- **The direct message of an acknowledgement.** -/
theorem SessionOk.dm_of_ack (hs : SessionOk s k x) (hcore : Core.Reachable s.core)
    (hanswered : Core.Answered k s.core.trace)
    (hack : (Core.outputsTo k s.core.trace)[i]? = some (Core.okSent, n)) :
    ∃ d turn, x.dms[((Core.enqueuedTo k s.core.trace).take i).countP Core.isAck]? = some d ∧
      (Core.turns s.core.trace)[n]? = some turn ∧ turn.conn = k ∧ turn.request = some d.1 := by
  obtain ⟨f, hdm⟩ := Core.dm_of_ack hanswered hcore hack
  obtain ⟨turn, hturn, hk, hreq, -⟩ := Core.mem_dmsBy.mp (List.mem_of_getElem? hdm)
  have hpre : (Core.dmsBy k s.core.trace).map (some ∘ Prod.fst) <+: x.dms.map (some ·.1) := by
    have hfilter : ((Core.handledBy k s.core.trace).filter fun f => Core.isDm (some f)).map some =
        ((Core.handledBy k s.core.trace).map some).filter Core.isDm := List.filter_map.symm
    rw [← List.map_map, Core.map_fst_dmsBy hcore, hs.dms_eq, hfilter]
    exact ((hs.handled (Core.inputOk hcore)).map some).filter _
  have hget := getElem?_of_isPrefix hpre (i :=
    ((Core.enqueuedTo k s.core.trace).take i).countP Core.isAck) (a := some f)
    (by rw [List.getElem?_map, hdm]; rfl)
  rw [List.getElem?_map] at hget
  obtain ⟨d, hd, hf⟩ := Option.map_eq_some_iff.mp hget
  exact ⟨d, turn, hd, hturn, hk, hreq.trans hf.symm⟩

/-- An acknowledgement that is read is one of a direct message that was sent. -/
theorem SessionOk.acks_lt (hs : SessionOk s k x) (hcore : Core.Reachable s.core)
    (hanswered : Core.Answered k s.core.trace)
    (hreads : x.reads ++ [Core.okSent] <+: Core.enqueuedTo k s.core.trace) :
    x.acks < x.dms.length := by
  have hget : (Core.enqueuedTo k s.core.trace)[x.reads.length]? = some Core.okSent :=
    getElem?_of_isPrefix hreads (List.getElem?_concat_length ..)
  rw [← Core.map_fst_outputsTo hcore, List.getElem?_map] at hget
  obtain ⟨⟨f, n⟩, hout, rfl⟩ := Option.map_eq_some_iff.mp hget
  obtain ⟨d, -, hd, -⟩ := hs.dm_of_ack hcore hanswered hout
  obtain ⟨rest, hrest⟩ := hreads
  rw [← hrest, List.append_assoc, List.take_left] at hd
  exact (List.getElem?_eq_some_iff.mp hd).1

/-- The acknowledgements that were read are no more than the direct messages that were sent. -/
theorem SessionOk.acks_le (hs : SessionOk s k x) (hcore : Core.Reachable s.core)
    (hanswered : Core.Answered k s.core.trace) : x.acks ≤ x.dms.length := by
  by_contra hlt
  obtain ⟨i, f, hi, hf, hcount⟩ := exists_of_lt_countP (not_le.mp hlt)
  obtain rfl := Core.isAck_iff.mp hf
  have hget := getElem?_of_isPrefix hs.reads hi
  rw [← Core.map_fst_outputsTo hcore, List.getElem?_map] at hget
  obtain ⟨⟨f, n⟩, hout, rfl⟩ := Option.map_eq_some_iff.mp hget
  obtain ⟨d, -, hd, -⟩ := hs.dm_of_ack hcore hanswered hout
  obtain ⟨rest, hrest⟩ := hs.reads
  rw [← hrest, List.take_append_of_le_length (List.getElem?_eq_some_iff.mp hi).1.le, hcount] at hd
  exact absurd (List.getElem?_eq_some_iff.mp hd).1 (lt_irrefl _)

/-- An acknowledgement that is read finds a direct message in the queue. -/
theorem AckOk.pendingDms_ne_nil (hx : AckOk x) (hs : SessionOk s k x)
    (hcore : Core.Reachable s.core) (hanswered : Core.Answered k s.core.trace)
    (hreading : x.reading = true)
    (hreads : x.reads ++ [Core.okSent] <+: Core.enqueuedTo k s.core.trace) :
    x.pendingDms ≠ [] := by
  intro hnil
  obtain ⟨extra, hpending, -⟩ := hx.pending hreading
  rw [hnil] at hpending
  have hempty := (List.append_eq_nil_iff.mp hpending.symm).1
  rw [List.drop_eq_nil_iff, List.length_map] at hempty
  exact absurd (hs.acks_lt hcore hanswered hreads) (not_lt.mpr hempty)

/-- A round of `pump_core_to_ws`. -/
theorem AckOk.round {active : PyStr → ℕ} {db db' : Database} (hx : AckOk x)
    (hs : SessionOk s k x) (hcore : Core.Reachable s.core)
    (hanswered : Core.Answered k s.core.trace) (hreading : x.reading = true)
    (hnext : s.nextFrame k x = some frame) (hreads : Session.Reads x y frame)
    (h : Session.Round active db x frame y db') : AckOk y := by
  have hread := State.nextFrame_prefix (Core.outputOk hcore.moveReachable) hs.reads hnext
  have hdms : y.dms = x.dms := by
    unfold Session.dms
    rw [hreads.sent]
  have hacks : y.acks = x.acks + if frame = Core.okSent then 1 else 0 := by
    rw [Session.acks, hreads.reads, List.countP_append, List.countP_singleton]
    unfold Core.isAck
    simp only [decide_eq_true_iff]
    rfl
  obtain ⟨extra, hpending, hextra⟩ := hx.pending hreading
  have hnoerror : frame.type ≠ ServerMsgType.error.toByte :=
    hanswered.no_error hcore (hread.subset List.mem_concat_self)
  have hold : ∀ r ∈ x.stored, r.own = true → OfAck y r := fun r hr hown =>
    (hx.stored r hr hown).mono hreads.username (hreads.reads ▸ List.prefix_append ..)
      (hdms ▸ List.prefix_rfl)
  -- the queue stays if the frame is no acknowledgement
  have hkeep : frame ≠ Core.okSent → y.pendingDms = x.pendingDms → ∃ extra,
      y.pendingDms = (y.dms.map Prod.snd).drop y.acks ++ extra ∧
        (y.writing = true → extra = []) := by
    intro hframe hsame
    rw [hdms, hacks, if_neg hframe, hsame, hreads.writing]
    exact ⟨extra, hpending, hextra⟩
  have hnotAck : ∀ {event : GatewayEvent}, gatewayEvent frame = .ok event →
      event ≠ .ok (py "direct message sent") → frame ≠ Core.okSent := by
    intro event hevent hne hframe
    exact hne (Except.ok.inj (hevent.symm.trans (gatewayEvent_eq_sent.mpr hframe)))
  have hnew : ∀ {added : Tables} {row : Message}, Session.Saves db x y db' added row false →
      ∀ r ∈ y.stored, r.own = true → OfAck y r := by
    intro added row hsaves r hr hown
    rw [hsaves.stored] at hr
    rcases List.mem_append.mp hr with hr | hr
    · exact hold r hr hown
    · rw [List.mem_singleton.mp hr] at hown
      cases hown
  cases h with
  | raises _ hstops hstored =>
    refine ⟨fun hgoes => ?_, hstored ▸ hold⟩
    rw [hstops] at hgoes
    cases hgoes
  | text hevent hsame hsaves =>
    exact ⟨fun _ => hkeep (hnotAck hevent nofun) hsame, hnew hsaves⟩
  | received hevent _ hsame hsaves =>
    exact ⟨fun _ => hkeep (hnotAck hevent nofun) hsame, hnew hsaves⟩
  | @acknowledged _ target text hevent hpop hsaves =>
    obtain rfl := gatewayEvent_eq_sent.mp hevent
    have hlt := hs.acks_lt hcore hanswered hread
    rw [List.drop_eq_getElem_cons (by rw [List.length_map]; exact hlt), List.getElem_map,
      List.cons_append, hpop] at hpending
    obtain ⟨hhead, hrest⟩ := List.cons.inj hpending
    refine ⟨fun _ => ⟨extra, ?_, fun hw => hextra (hreads.writing ▸ hw)⟩, fun r hr hown => ?_⟩
    · rw [hdms, hacks, if_pos rfl]
      exact hrest
    · rw [hsaves.stored] at hr
      rcases List.mem_append.mp hr with hr | hr
      · exact hold r hr hown
      · rw [List.mem_singleton.mp hr]
        refine ⟨?_, x.dms[x.acks], ?_, ?_⟩
        · rw [hreads.reads]
          exact List.getElem?_concat_length ..
        · show y.dms[(y.reads.take x.reads.length).countP Core.isAck]? = _
          rw [hreads.reads, List.take_left, hdms]
          exact List.getElem?_eq_getElem hlt
        · rw [hreads.username, ← hhead]
  | shows hevent _ _ hnone hsame _ hstored =>
    rw [if_neg hnoerror] at hsame
    refine ⟨fun _ => hkeep (fun hframe => ?_) hsame, hstored ▸ hold⟩
    -- an acknowledgement finds its direct message in the queue
    have hevent' := gatewayEvent_eq_sent.mpr hframe
    have hempty := hnone (Except.ok.inj (hevent.symm.trans hevent'))
    exact hx.pendingDms_ne_nil hs hcore hanswered hreading (hframe ▸ hread) hempty

/-- A round of `pump_ws_to_core`. -/
theorem AckOk.command (hx : AckOk x) (hs : SessionOk s k x) (hcore : Core.Reachable s.core)
    (hanswered : Core.Answered k s.core.trace) (hwriting : x.writing = true)
    (h : Session.Writes x y) (hpre : x.pendingDms <+: y.pendingDms) : AckOk y := by
  have hacks : y.acks = x.acks := by
    unfold Session.acks
    rw [h.reads]
  have hsame : y.sent = x.sent → y.dms = x.dms := by
    intro hsent
    unfold Session.dms
    rw [hsent]
  have hdms : x.dms <+: y.dms := by
    rcases h.sent with ⟨hsent, -⟩ | ⟨c, -, hsent, -⟩
    · exact hsame hsent ▸ List.prefix_rfl
    · exact Session.dms_concat hsent ▸ List.prefix_append ..
  refine ⟨fun hreading => ?_, fun r hr hown => ?_⟩
  · obtain ⟨extra, hpending, hextra⟩ := hx.pending (h.reading ▸ hreading)
    rw [hextra hwriting, List.append_nil] at hpending
    rw [hacks]
    rcases h.sent with ⟨hsent, hkept⟩ | ⟨c, -, hsent, hkept⟩
    · -- the entry of a message that could not be sent stays behind
      obtain ⟨more, hmore⟩ := hpre
      refine ⟨more, ?_, fun hw => ?_⟩
      · rw [hsame hsent, ← hpending, hmore]
      · rw [hkept hw] at hmore
        exact List.append_right_eq_self.mp hmore
    · refine ⟨[], ?_, fun _ => rfl⟩
      have hle := hs.acks_le hcore hanswered
      rw [List.append_nil, hkept, Session.dms_concat hsent, List.map_append,
        List.drop_append_of_le_length (by rw [List.length_map]; exact hle), hpending]
      cases c.dm <;> rfl
  · rw [h.stored] at hr
    exact (hx.stored r hr hown).mono h.username (h.reads ▸ List.prefix_rfl) hdms

/-- **The queue and the rows of a session whose direct messages are answered.** -/
theorem ackOk (h : Reachable admits s) (hx : s.sessions k = some x)
    (hanswered : Core.Answered k s.core.trace) : AckOk x := by
  refine Transition.Reachable.invariant (P := fun s => ∀ k x, s.sessions k = some x →
    Core.Answered k s.core.trace → AckOk x) ?_ ?_ h k x hx hanswered
  · rintro s ⟨-, hnone, -⟩ k x hx
    rw [hnone] at hx
    cases hx
  · rintro s t hr hs ⟨e, -, hst⟩ k y hy hanswered
    have hcore := Reachable.core hr
    have hbefore : Core.Answered k s.core.trace := by
      rcases hst.core_cases with ⟨-, hstep, -, -⟩ | heq
      · exact hanswered.of_prefix hstep.turns_prefix
      · exact heq ▸ hanswered
    cases hst.becomes hy with
    | idle hx => exact hs k y hx hbefore
    | connect _ _ _ =>
      exact ⟨fun hreading => (by cases hreading), fun r hr => absurd hr List.not_mem_nil⟩
    | @registered x frame hx hphase _ =>
      have hfresh := (sessionOk hr hx).fresh hphase
      have hkept : (x.registered frame).dms = [] ∧ (x.registered frame).pendingDms = [] ∧
          (x.registered frame).stored = [] := by
        rw [hfresh]
        unfold Session.registered
        simp only
        split_ifs <;> exact ⟨rfl, rfl, rfl⟩
      obtain ⟨hdms, hpending, hstored⟩ := hkept
      constructor
      · rw [hdms, hpending, List.map_nil, List.drop_nil]
        exact fun _ => ⟨[], rfl, fun _ => rfl⟩
      · rw [hstored]
        exact fun r hr => absurd hr List.not_mem_nil
    | abandoned hx hphase _ _ =>
      rw [(sessionOk hr hx).fresh hphase]
      exact ⟨fun hreading => (by cases hreading), fun r hr => absurd hr List.not_mem_nil⟩
    | @read x frame hx hphase hreading hnext =>
      exact (hs k x hx hbefore).round (sessionOk hr hx) hcore hbefore hreading hnext
        (Session.pumpCoreToWs_reads ..) (Session.pumpCoreToWs_round ..)
    | @command x loaded hx hphase hwriting =>
      exact (hs k x hx hbefore).command (sessionOk hr hx) hcore hbefore hwriting
        (Session.pumpWsToCore_writes ..) (Session.pumpWsToCore_pendingDms_prefix ..)
    | @finish x cancelled hx =>
      have hok := hs k x hx hbefore
      refine ⟨fun hreading => ?_, hok.stored⟩
      obtain ⟨extra, hpending, hextra⟩ := hok.pending (Bool.and_eq_true _ _ ▸ hreading).1
      exact ⟨extra, hpending, fun hw => hextra (Bool.and_eq_true _ _ ▸ hw).1⟩
    | halt hx _ =>
      exact ⟨fun hreading => (by cases hreading), (hs k _ hx hbefore).stored⟩

end Gateway
end ChannelWire
