import ChannelWire.Core.Relays
import ChannelWire.Gateway.Codecs
import ChannelWire.Gateway.Decoding
import ChannelWire.Gateway.PairedRows

/-!
# Texts as they were sent

The core reads a text as a C string, so what it relays ends before the first zero.  A row belongs to
the message in whose turn the core enqueued the frame at which the row was stored (`StoredFor`).
If that frame relays the text, the row holds what the reader saw (`body_of_read`).  If it is the
acknowledgement, the row holds what stood first in `pending_dms`; and in a run that keeps
`pending_dms` paired with the replies this is the text as it was typed (`body_of_ack`).
-/

namespace ChannelWire
namespace Gateway

open Utf8 Labelling

variable {s t : State} {k : ℕ} {x y : Session} {message : Dict} {msgType : ClientMsgType}
  {payload : Bytes} {typed : PyStr} {reply : Frame} {admits : State → Event → Prop}

/-- The text of a message of a client. -/
def GatewayEvent.body : GatewayEvent → Option PyStr
  | .chat _ _ text | .dm _ text => some text
  | _ => none

/-! ## What is shown -/

/-- The strings of an accepted direct message. -/
theorem dm_strings (hm : corePayloadForCommand message = .ok (.dm, payload)) :
    ∃ target typed, message.getStr "to" = some target ∧ message.getStr "text" = some typed ∧
      stringPayload [target, typed] = .ok payload := by
  obtain ⟨-, ⟨target, typed, hvalues, -, -⟩, hpayload⟩ := corePayloadForCommand_ok hm
  rw [hvalues] at hpayload
  rw [commandStrings] at hvalues
  cases hto : message.getStr "to" with
  | none =>
    rw [hto] at hvalues
    have hlen := congrArg List.length hvalues
    cases htext : message.getStr "text" <;> rw [htext] at hlen <;> cases hlen
  | some target' =>
    cases htext : message.getStr "text" with
    | none =>
      rw [hto, htext] at hvalues
      cases congrArg List.length hvalues
    | some typed' =>
      rw [hto, htext] at hvalues
      have hsame : [target', typed'] = [target, typed] := hvalues
      rw [← hsame] at hpayload
      exact ⟨target', typed', rfl, rfl, hpayload⟩

theorem event_of_say {text : Bytes} {channel sender : Bytes}
    (hm : corePayloadForCommand message = .ok (.say, payload))
    (ht : message.getStr "text" = some typed)
    (hread : Core.readOneStringPayload payload (Core.cwTextCap + 1) = some text)
    (hchannel : Core.ValidName channel) (hsender : Core.ValidName sender) :
    gatewayEvent ⟨ServerMsgType.chat.toByte, ([channel, sender, text].map stringField).flatten⟩ =
      .ok (.chat (asText channel) (asText sender) (typed.takeWhile (· ≠ 0))) := by
  obtain ⟨-, -, hpayload⟩ := corePayloadForCommand_ok hm
  rw [commandStrings, ht] at hpayload
  obtain ⟨encoded, hencoded, hshort, rfl⟩ := stringPayload_ok hpayload
  obtain ⟨b, rest, hb, hrest, rfl⟩ := List.forall₂_cons_left_iff.mp hencoded
  cases hrest
  have hlen := hshort b List.mem_cons_self
  have htext := @Core.readOneStringPayload_field b text _ (by omega) (by simpa using hread)
  have hdecode : decode text = some (typed.takeWhile (· ≠ 0)) := by
    rw [htext]
    exact encode_eq_some_iff.mp (encode_takeWhile hb)
  have hstrings : decodeStrings ([channel, sender, text].map stringField).flatten =
      .ok [asText channel, asText sender, typed.takeWhile (· ≠ 0)] := by
    refine decodeStrings_fields (.cons (decode_ascii (isAscii_of_validName hchannel))
      (.cons (decode_ascii (isAscii_of_validName hsender)) (.cons hdecode .nil))) fun b' hb' => ?_
    have hc := hchannel.length_le
    have hs := hsender.length_le
    have hl := Core.length_readOneStringPayload _ hread
    unfold Core.cwNameCap at hc hs
    unfold Core.cwTextCap at hl
    simp only [List.mem_cons, List.not_mem_nil, or_false] at hb'
    rcases hb' with rfl | rfl | rfl <;> omega
  unfold gatewayEvent
  rw [ServerMsgType.ofByte_toByte]
  simp only
  rw [hstrings]

theorem event_of_dm {text target sender : Bytes}
    (hm : corePayloadForCommand message = .ok (.dm, payload))
    (ht : message.getStr "text" = some typed)
    (hread : Core.readDmPayload payload = some (target, text)) (hsender : Core.ValidName sender) :
    gatewayEvent ⟨ServerMsgType.dmRecv.toByte, ([sender, text].map stringField).flatten⟩ =
      .ok (.dm (asText sender) (typed.takeWhile (· ≠ 0))) := by
  obtain ⟨target', typed', -, htyped, hpayload⟩ := dm_strings hm
  obtain rfl := Option.some.inj (htyped.symm.trans ht)
  obtain ⟨encoded, hencoded, hshort, rfl⟩ := stringPayload_ok hpayload
  obtain ⟨a, rest, -, hrest, rfl⟩ := List.forall₂_cons_left_iff.mp hencoded
  obtain ⟨b, rest', hb, hrest', rfl⟩ := List.forall₂_cons_left_iff.mp hrest
  cases hrest'
  have hlena := hshort a List.mem_cons_self
  have hlenb := hshort b (List.mem_cons_of_mem _ List.mem_cons_self)
  obtain ⟨-, htext⟩ := @Core.readDmPayload_fields a b target text (by omega) (by omega)
    (by simpa using hread)
  have hdecode : decode text = some (typed'.takeWhile (· ≠ 0)) := by
    rw [htext]
    exact encode_eq_some_iff.mp (encode_takeWhile hb)
  have hstrings : decodeStrings ([sender, text].map stringField).flatten =
      .ok [asText sender, typed'.takeWhile (· ≠ 0)] := by
    refine decodeStrings_fields (.cons (decode_ascii (isAscii_of_validName hsender))
      (.cons hdecode .nil)) fun b' hb' => ?_
    have hs := hsender.length_le
    have hl := Core.length_readDmPayload _ hread
    unfold Core.cwNameCap at hs
    unfold Core.cwTextCap at hl
    simp only [List.mem_cons, List.not_mem_nil, or_false] at hb'
    rcases hb' with rfl | rfl <;> omega
  unfold gatewayEvent
  rw [ServerMsgType.ofByte_toByte]
  simp only
  rw [hstrings]

/-- **What is shown of a text is what stands before its first zero.** -/
theorem event_of_relays {text : Bytes} (hm : corePayloadForCommand message = .ok (msgType, payload))
    (ht : message.getStr "text" = some typed)
    (h : Core.Relays ⟨msgType.toByte, payload⟩ reply text) :
    ∃ event, gatewayEvent reply = .ok event ∧ event.body = some (typed.takeWhile (· ≠ 0)) := by
  cases h with
  | chat htype hread hchannel hsender hreply =>
    obtain rfl := ClientMsgType.toByte_inj.mp htype
    exact ⟨_, hreply ▸ event_of_say hm ht hread hchannel hsender, rfl⟩
  | dm htype hread hsender hreply =>
    obtain rfl := ClientMsgType.toByte_inj.mp htype
    exact ⟨_, hreply ▸ event_of_dm hm ht hread hsender, rfl⟩

/-- A text without a zero is its own part before the first zero. -/
theorem takeWhile_eq_iff {typed : PyStr} : typed.takeWhile (· ≠ 0) = typed ↔ 0 ∉ typed := by
  rw [List.takeWhile_eq_self_iff]
  constructor
  · intro h hmem
    exact absurd rfl (of_decide_eq_true (h 0 hmem))
  · intro h c hc
    refine decide_eq_true ?_
    rintro rfl
    exact h hc

/-! ## What is stored -/

/-- A target and a text of a direct message that was accepted. -/
def TypedDm (p : PyStr × PyStr) : Prop := ∃ message payload,
  corePayloadForCommand message = .ok (.dm, payload) ∧ message.getStr "to" = some p.1 ∧
    message.getStr "text" = some p.2

/-- **What is in `pending_dms`, and stored from it, was typed.** -/
structure TypedOk (x : Session) : Prop where
  pending : ∀ p ∈ x.pendingDms, TypedDm p
  stored : ∀ r ∈ x.stored, r.own = true →
    ∃ target, r.row.recipient = some target ∧ TypedDm (target, r.row.body)

namespace Session

theorem save_pendingDms (x : Session) (index : ℕ) (tx : Transaction) (own : Bool)
    (event : GatewayEvent) : (x.save index tx own event).1.pendingDms = x.pendingDms := by
  unfold save
  cases tx.commit <;> rfl

/-- Reading takes entries from `pending_dms`, and adds none. -/
theorem pumpCoreToWs_pendingDms (active : PyStr → ℕ) (db : Database) (x : Session)
    (frame : Frame) : ∀ p ∈ (x.pumpCoreToWs active db frame).1.pendingDms, p ∈ x.pendingDms := by
  intro p hp
  unfold pumpCoreToWs at hp
  simp only at hp
  split at hp
  · exact hp
  · split at hp
    · split_ifs at hp
      · rwa [save_pendingDms] at hp
      · exact hp
    · split_ifs at hp
      · rwa [save_pendingDms] at hp
      · exact hp
    · split_ifs at hp
      · split at hp
        · exact hp
        · next hpending =>
          rw [save_pendingDms] at hp
          rw [hpending]
          exact List.mem_cons_of_mem _ hp
      · exact hp
    · exact List.mem_of_mem_tail hp
    · exact hp

theorem coreSend_pendingDms (x : Session) (msgType : ClientMsgType) (payload : Bytes)
    (dm : Option (PyStr × PyStr)) :
    (x.coreSend msgType payload dm).pendingDms = x.pendingDms := by
  unfold coreSend
  split <;> rfl

/-- Writing adds the entry of an accepted direct message. -/
theorem pumpWsToCore_pendingDms (db : Database) (x : Session) (loaded : Except ValueError Json) :
    ∀ p ∈ (x.pumpWsToCore db loaded).1.pendingDms, p ∈ x.pendingDms ∨ TypedDm p := by
  intro p hp
  unfold pumpWsToCore at hp
  split at hp
  · exact .inl hp
  · next message =>
    split at hp
    · exact .inl hp
    · next msgType payload hm =>
      split at hp
      · simp only at hp
        split at hp
        · exact .inl hp
        · rw [coreSend_pendingDms] at hp
          exact .inl hp
      · simp only at hp
        split at hp
        · exact .inl hp
        · rw [coreSend_pendingDms] at hp
          exact .inl hp
      · simp only at hp
        rw [coreSend_pendingDms] at hp
        refine (List.mem_append.mp hp).imp_right fun hp => ?_
        rw [List.mem_singleton.mp hp]
        obtain ⟨target, typed, hto, htext, -⟩ := dm_strings hm
        rw [hto, htext]
        exact ⟨message, payload, hm, hto, htext⟩
      · rw [coreSend_pendingDms] at hp
        exact .inl hp
  · exact .inl hp

end Session

theorem Session.Round.ownRow {active : PyStr → ℕ} {db db' : Database} {frame : Frame}
    (h : Session.Round active db x frame y db') (hx : TypedOk x) : ∀ r ∈ y.stored, r.own = true →
      ∃ target, r.row.recipient = some target ∧ TypedDm (target, r.row.body) := by
  intro r hr hown
  have hnew : ∀ {row : Message}, y.stored = x.stored ++ [⟨row, x.reads.length, false⟩] →
      r ∈ x.stored := by
    intro row hstored
    rw [hstored] at hr
    refine (List.mem_append.mp hr).resolve_right fun hr => ?_
    rw [List.mem_singleton.mp hr] at hown
    cases hown
  cases h with
  | raises _ _ hstored => exact hx.stored r (hstored ▸ hr) hown
  | text _ _ hsaves => exact hx.stored r (hnew hsaves.stored) hown
  | received _ _ _ hsaves => exact hx.stored r (hnew hsaves.stored) hown
  | @acknowledged _ target typed _ hpending hsaves =>
    rw [hsaves.stored] at hr
    rcases List.mem_append.mp hr with hr | hr
    · exact hx.stored r hr hown
    · rw [List.mem_singleton.mp hr]
      exact ⟨target, rfl, hx.pending _ (hpending ▸ List.mem_cons_self)⟩
  | shows _ _ _ _ _ _ hstored => exact hx.stored r (hstored ▸ hr) hown

theorem typedOk (h : Reachable admits s) (hx : s.sessions k = some x) : TypedOk x := by
  refine Transition.Reachable.invariant
    (P := fun s => ∀ k x, s.sessions k = some x → TypedOk x) ?_ ?_ h k x hx
  · rintro s ⟨-, hnone, -⟩ k x hx
    rw [hnone] at hx
    cases hx
  · rintro s t - hs ⟨e, -, hst⟩ k y hy
    cases hst.becomes hy with
    | idle hx => exact hs k y hx
    | connect _ _ _ =>
      exact ⟨fun p hp => absurd hp List.not_mem_nil, fun r hr => absurd hr List.not_mem_nil⟩
    | @registered x frame hx _ _ =>
      have hpending : (x.registered frame).pendingDms = x.pendingDms := by
        unfold Session.registered
        simp only
        split_ifs <;> rfl
      have hstored := Session.registered_stored x frame
      exact ⟨hpending ▸ (hs k x hx).pending, hstored ▸ (hs k x hx).stored⟩
    | abandoned hx _ _ _ => exact ⟨(hs k _ hx).pending, (hs k _ hx).stored⟩
    | @read x frame hx hphase hreading hnext =>
      have hok := hs k x hx
      refine ⟨fun p hp => hok.pending p (Session.pumpCoreToWs_pendingDms _ _ _ _ p hp), ?_⟩
      exact (Session.pumpCoreToWs_round s.active s.db x frame).ownRow hok
    | @command x loaded hx _ _ =>
      have hok := hs k x hx
      refine ⟨fun p hp => ?_, ?_⟩
      · exact (Session.pumpWsToCore_pendingDms _ _ _ p hp).elim (hok.pending p) id
      · rw [(Session.pumpWsToCore_writes s.db x loaded).stored]
        exact hok.stored
    | finish hx | halt hx _ => exact ⟨(hs k _ hx).pending, (hs k _ hx).stored⟩

/-! ## Every run -/

/-- The row was stored for the message of turn `n`: on reading a frame of this turn.  What a session
read stands where the core enqueued it. -/
def StoredFor (s : State) (n k : ℕ) (x : Session) (r : Stored) : Prop :=
  r ∈ x.stored ∧ ∃ frame, (Core.outputsTo k s.core.trace)[r.index]? = some (frame, n)

/-- The frame at which a row was stored is the one its index names. -/
theorem reads_of_storedFor (h : Reachable admits s) (hx : s.sessions k = some x) {r : Stored}
    {n : ℕ} {frame : Frame} (hr : r ∈ x.stored)
    (hout : (Core.outputsTo k s.core.trace)[r.index]? = some (frame, n)) :
    FromFrame x.username.name r frame := by
  obtain ⟨f, hf, hfrom⟩ := rowOk h hx r hr
  have hget := getElem?_of_isPrefix (sessionOk h hx).reads hf
  rw [← Core.map_fst_outputsTo (Reachable.core h), List.getElem?_map, hout] at hget
  obtain rfl : frame = f := Option.some.inj hget
  exact hfrom

/-- **A row that was stored on reading a relayed text holds the text that was shown.** -/
theorem body_of_read (h : Reachable admits s) (hx : s.sessions k = some x) {r : Stored} {n : ℕ}
    (hstored : StoredFor s n k x r) (hown : r.own = false) {turn : Core.Turn}
    (hturn : (Core.turns s.core.trace)[n]? = some turn)
    (hm : corePayloadForCommand message = .ok (msgType, payload))
    (ht : message.getStr "text" = some typed)
    (hreq : turn.request = some ⟨msgType.toByte, payload⟩) :
    r.row.body = typed.takeWhile (· ≠ 0) := by
  obtain ⟨hr, frame, hout⟩ := hstored
  obtain ⟨turn', hturn', hmem⟩ := Core.mem_outputsTo.mp (List.mem_of_getElem? hout)
  obtain rfl := Option.some.inj (hturn.symm.trans hturn')
  have hshows : Core.IsRelay frame → ∀ {event : GatewayEvent}, gatewayEvent frame = .ok event →
      event.body = some (typed.takeWhile (· ≠ 0)) := by
    intro hrelay event hevent
    obtain ⟨text, hrelays⟩ := Core.relays (Reachable.core h) turn (List.mem_of_getElem? hturn) _ hreq
      _ hmem hrelay
    obtain ⟨event', hevent', hbody⟩ := event_of_relays hm ht hrelays
    obtain rfl := Except.ok.inj (hevent'.symm.trans hevent)
    exact hbody
  cases reads_of_storedFor h hx hr hout with
  | text htext hrow =>
    have hbody := hshows (.inl (Core.isChat_iff.mpr (gatewayEvent_of htext).1)) htext
    rw [hrow]
    exact Option.some.inj hbody
  | received hdm _ hrow =>
    have hbody := hshows (.inr (Core.isDmRecv_iff.mpr (gatewayEvent_of hdm).1)) hdm
    rw [hrow]
    exact Option.some.inj hbody
  | acknowledged _ hown' _ =>
    rw [hown] at hown'
    cases hown'

/-- **A row that was stored on reading the acknowledgement of a direct message holds its text**, in
a run that keeps `pending_dms` paired with the replies. -/
theorem body_of_ack (h : Reachable PairingSafe s) (hx : s.sessions k = some x) {r : Stored} {n : ℕ}
    (hstored : StoredFor s n k x r) (hown : r.own = true) {turn : Core.Turn}
    (hturn : (Core.turns s.core.trace)[n]? = some turn)
    (hm : corePayloadForCommand message = .ok (msgType, payload))
    (ht : message.getStr "text" = some typed)
    (hreq : turn.request = some ⟨msgType.toByte, payload⟩) : r.row.body = typed := by
  obtain ⟨hr, frame, hout⟩ := hstored
  obtain ⟨d, hd, hrow, -, turn', hturn', -, hreq'⟩ := ownRow_of_ack h hx hr hown hout
  obtain rfl := Option.some.inj (hturn.symm.trans hturn')
  obtain ⟨htype, hpayload⟩ := (sessionOk h hx).dm_frame hd
  have hframe := Option.some.inj (hreq.symm.trans hreq')
  rw [← hframe] at htype hpayload
  obtain rfl := ClientMsgType.toByte_inj.mp htype
  obtain ⟨target, typed', -, htyped, hpayload'⟩ := dm_strings hm
  obtain rfl := Option.some.inj (htyped.symm.trans ht)
  have hsame := stringPayload_inj hpayload hpayload'
  rw [hrow]
  exact (List.cons.inj (List.cons.inj hsame).2).1

/-- **When a text arrives as it was sent.**  In every run of the gateway, for every accepted `say`
or `dm` with a text, whoever sent it, for the turn in which the core handles it and for every frame
of this turn that relays it: the frame is decoded to the part of the text before the first zero, so
the text that is shown is the one that was typed if and only if this has no zero; and every row that
a session stored on reading a relay of the message holds what was shown, every other one the target
and the text of an accepted direct message.

If the run keeps `pending_dms` paired with the replies, every row that was stored on reading the
acknowledgement of the message holds the text as it was typed.  So the text is shown as it was typed,
and all rows stored for the message hold what was shown, if and only if the text has no zero. -/
theorem text_arrives_iff (h : Reachable admits s) {n : ℕ} {turn : Core.Turn}
    (hturn : (Core.turns s.core.trace)[n]? = some turn)
    (hm : corePayloadForCommand message = .ok (msgType, payload))
    (ht : message.getStr "text" = some typed)
    (hreq : turn.request = some ⟨msgType.toByte, payload⟩) {o : ℕ × Frame} (ho : o ∈ turn.output)
    (hrelay : Core.IsRelay o.2) :
    ∃ event, gatewayEvent o.2 = .ok event ∧ event.body = some (typed.takeWhile (· ≠ 0)) ∧
      (event.body = some typed ↔ 0 ∉ typed) ∧
      (∀ k x r, s.sessions k = some x → StoredFor s n k x r → r.own = false →
        event.body = some r.row.body) ∧
      (∀ k x r, s.sessions k = some x → StoredFor s n k x r → r.own = true →
        ∃ target, r.row.recipient = some target ∧ TypedDm (target, r.row.body)) ∧
      (Reachable PairingSafe s →
        (∀ k x r, s.sessions k = some x → StoredFor s n k x r → r.own = true →
          r.row.body = typed) ∧
        ((event.body = some typed ∧ ∀ k x r, s.sessions k = some x → StoredFor s n k x r →
            event.body = some r.row.body) ↔ 0 ∉ typed)) := by
  obtain ⟨text, hrelays⟩ := Core.relays (Reachable.core h) turn (List.mem_of_getElem? hturn) _ hreq
    o ho hrelay
  obtain ⟨event, hevent, hbody⟩ := event_of_relays hm ht hrelays
  have hshown : event.body = some typed ↔ 0 ∉ typed := by
    rw [← takeWhile_eq_iff, hbody]
    exact Option.some_inj
  have hread : ∀ k x r, s.sessions k = some x → StoredFor s n k x r → r.own = false →
      event.body = some r.row.body := by
    intro k x r hx hstored hown
    rw [hbody, body_of_read h hx hstored hown hturn hm ht hreq]
  refine ⟨event, hevent, hbody, hshown, hread,
    fun k x r hx hstored hown => (typedOk h hx).stored r hstored.1 hown, fun hpaired => ?_⟩
  have hack : ∀ k x r, s.sessions k = some x → StoredFor s n k x r → r.own = true →
      r.row.body = typed := fun k x r hx hstored hown =>
    body_of_ack hpaired hx hstored hown hturn hm ht hreq
  refine ⟨hack, fun hall => hshown.mp hall.1, fun hzero => ⟨hshown.mpr hzero, ?_⟩⟩
  intro k x r hx hstored
  cases hown : r.own with
  | false => exact hread k x r hx hstored hown
  | true => rw [hack k x r hx hstored hown, hshown.mpr hzero]

/-- A direct message of `alice` to herself, with a zero in its text. -/
def dmWithZero : Dict := [(py "type", .string (py "dm")), (py "to", .string alice.name),
  (py "text", .string [0x68, 0, 0x69])]

/-- The bytes of its payload. -/
def zeroDmPayload : Bytes := stringField alice.bytes ++ stringField [0x68, 0, 0x69]

/-- She sends it and reads both frames. -/
def zeroDm : List Op := aliceOnline ++ [.command 1 (.ok (.object dmWithZero)),
  .deliver 0 ⟨6, zeroDmPayload⟩, .flush 0, .flush 0, .read 1, .read 1]

/-- What `alice` sends herself is shown and stored as she typed it. -/
theorem text_arrives_iff_dmOnly : ∃ event x r, (start.run dmOnly).sessions 1 = some x ∧
    r ∈ x.stored ∧ r.own = true ∧
    gatewayEvent ⟨ServerMsgType.dmRecv.toByte,
      stringField alice.bytes ++ stringField (ascii "hi")⟩ = .ok event ∧
    event.body = some (py "hi") ∧ event.body = some r.row.body := by
  obtain ⟨x, hx, r, hr, hown, hindex⟩ : ∃ x ∈ (start.run dmOnly).sessions 1,
      ∃ r ∈ x.stored, r.own = true ∧ r.index = 2 := by decide +kernel
  obtain ⟨turn, hturn, hrequest, houtput⟩ :
      ∃ turn ∈ (Core.turns (start.run dmOnly).core.trace)[1]?,
        turn.request = some ⟨ClientMsgType.dm.toByte, dmMyselfFrame.payload⟩ ∧
        (1, ⟨ServerMsgType.dmRecv.toByte, stringField alice.bytes ++ stringField (ascii "hi")⟩) ∈
          turn.output := by decide +kernel
  have hack : (Core.outputsTo 1 (start.run dmOnly).core.trace)[2]? = some (Core.okSent, 1) := by
    decide +kernel
  obtain ⟨event, hevent, hbody, -, -, -, hpaired⟩ := text_arrives_iff reachable_dmOnly hturn
    (by decide +kernel : corePayloadForCommand dmMyself = .ok (.dm, dmMyselfFrame.payload))
    (by decide +kernel : dmMyself.getStr "text" = some (py "hi")) hrequest houtput
    (.inr (by decide +kernel))
  refine ⟨event, x, r, hx, hr, hown, hevent, hbody.trans (by decide +kernel), ?_⟩
  exact ((hpaired reachable_dmOnly).2.mpr (by decide +kernel)).2 1 x r hx
    ⟨hr, Core.okSent, hindex ▸ hack⟩

/-- What is shown of the text ends before its zero, and the row has the whole text. -/
theorem text_cut_at_zero : ∃ s x, Reachable (fun _ _ => True) s ∧ s.sessions 1 = some x ∧
    corePayloadForCommand dmWithZero = .ok (.dm, zeroDmPayload) ∧
    (∃ turn ∈ Core.turns s.core.trace,
      turn.request = some ⟨ClientMsgType.dm.toByte, zeroDmPayload⟩ ∧
      ∃ o ∈ turn.output, o.2.type = ServerMsgType.dmRecv.toByte ∧
        (gatewayEvent o.2).toOption.bind GatewayEvent.body = some [0x68]) ∧
    x.stored.map (fun r => r.row.body) = [[0x68, 0, 0x69]] := by
  have hreach : Reachable (fun _ _ => True) (start.run zeroDm) :=
    reachable_of_legal (by decide +kernel)
  obtain ⟨x, hx, hstored⟩ : ∃ x ∈ (start.run zeroDm).sessions 1,
      x.stored.map (fun r => r.row.body) = [[0x68, 0, 0x69]] := by decide +kernel
  exact ⟨_, x, hreach, hx, by decide +kernel, by decide +kernel, hstored⟩

end Gateway
end ChannelWire
