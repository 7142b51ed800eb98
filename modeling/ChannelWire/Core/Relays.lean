import ChannelWire.Core.Deliveries
import ChannelWire.Core.Outputs

/-!
# Relayed texts

A `CHAT` and a `DM_RECV` carry the text that the server read of the `SAY` or the `DM` in whose turn
they are enqueued, behind names that are valid (`Relays`).
-/

namespace ChannelWire
namespace Core

/-- The reply relays the text of the request. -/
inductive Relays (request reply : Frame) (text : Bytes) : Prop where
  | chat {channel sender : Bytes} : request.type = ClientMsgType.say.toByte →
      readOneStringPayload request.payload (cwTextCap + 1) = some text →
      ValidName channel → ValidName sender →
      reply = ⟨ServerMsgType.chat.toByte, ([channel, sender, text].map stringField).flatten⟩ →
      Relays request reply text
  | dm {sender target : Bytes} : request.type = ClientMsgType.dm.toByte →
      readDmPayload request.payload = some (target, text) → ValidName sender →
      reply = ⟨ServerMsgType.dmRecv.toByte, ([sender, text].map stringField).flatten⟩ →
      Relays request reply text

/-- The frame carries a text of a client. -/
def IsRelay (frame : Frame) : Prop := isChat frame = true ∨ isDmRecv frame = true

variable {s t : Server} {i : Slot} {turn : Turn} {frame : Frame}

theorem validName_username (hv : NamesOk s) (h : (s.clients i).registered = true) :
    ValidName (s.clients i).username := hv.valid i ((hv.registered_iff i).mp h)

theorem TakesTurn.relays_dm (h : TakesTurn s t i turn) (hr : Reachable s)
    (hreq : turn.request = some frame) {o : ℕ × Frame} (ho : o ∈ turn.output)
    (hrecv : isDmRecv o.2 = true) : ∃ text, Relays frame o.2 text := by
  rcases h.dm_output hr with hnone | ⟨frame', target, text, hdelivers⟩
  · rw [(hnone o ho).1] at hrecv
    cases hrecv
  · obtain rfl := Option.some.inj (hreq.symm.trans hdelivers.request)
    obtain ⟨name, hread, -⟩ := hdelivers.accepts.found
    have hvalid := validName_username (namesOk hr.moveReachable) hdelivers.accepts.registered
    exact ⟨text, .dm hdelivers.accepts.dm hread hvalid
      (congrArg Prod.snd (hdelivers.eq_recv ho hrecv))⟩

theorem TakesTurn.relays_chat (h : TakesTurn s t i turn) (hr : Reachable s)
    (hreq : turn.request = some frame) {o : ℕ × Frame} (ho : o ∈ turn.output)
    (hchat : isChat o.2 = true) : ∃ text, Relays frame o.2 text := by
  have hc := channelsOk hr.moveReachable
  obtain ⟨j, type, payload, -, -, hframe, hemits⟩ := h.sends o ho
  have htype := isChat_iff.mp hchat
  rw [hframe] at htype
  obtain rfl := ServerMsgType.toByte_inj.mp htype
  have hsay : frame.type = ClientMsgType.say.toByte := by
    have hsay' := hemits.1
    rw [requestOf, hreq] at hsay'
    exact hsay'
  obtain ⟨v, hserves⟩ := h.serves hr hreq
  have hmem : Effect.enqueued o.1 o.2 ∈
      recorded (s.emit (.handled (s.clients i).conn frame)) v := by
    rw [← hserves.output] at ho
    obtain ⟨e, he, hout⟩ := List.mem_flatMap.mp ho
    cases e with
    | enqueued k f => rwa [List.mem_singleton.mp hout]
    | _ => cases hout
  have hne : ∀ {type : ClientMsgType}, frame.type = type.toByte → type = .say := fun htype' =>
    ClientMsgType.toByte_inj.mp (htype'.symm.trans hsay)
  have hending := hserves.ending
  cases hending with
  | refused text =>
    obtain ⟨-, heq⟩ := eq_of_recorded_reply hmem
    rw [hframe] at heq
    have htypes : ServerMsgType.chat.toByte = ServerMsgType.error.toByte := congrArg Frame.type heq
    cases ServerMsgType.toByte_inj.mp htypes
  | @said idx text haccepts =>
    have heq := (Enqueues.chatSent ..).mem_recorded hmem
    refine ⟨text, .chat hsay haccepts.read ?_ ?_ heq⟩
    · exact hc.valid _ (List.mem_of_getElem? (findChannel_eq_some haccepts.channel))
    · exact validName_username (s := s) (namesOk hr.moveReachable) haccepts.registered
  | registered htype' _ => cases hne htype'
  | renamed htype' _ => cases hne htype'
  | joined htype' _ _ _ => cases hne htype'
  | switched htype' _ _ _ => cases hne htype'
  | left htype' _ _ _ => cases hne htype'
  | sentDm haccepts _ => cases hne haccepts.dm
  | lostDm haccepts _ => cases hne haccepts.dm
  | queried text _ hquery =>
    simp only [List.mem_cons, List.not_mem_nil, or_false] at hquery
    rcases hquery with hquery | hquery | hquery <;> cases hne hquery
  | quit htype' => cases hne htype'

/-- **Texts are relayed in the turn of their message.** -/
theorem relays (hr : Reachable s) : ∀ turn ∈ turns s.trace, ∀ frame, turn.request = some frame →
    ∀ o ∈ turn.output, IsRelay o.2 → ∃ text, Relays frame o.2 text := by
  refine Transition.Reachable.invariant (P := fun s => ∀ turn ∈ turns s.trace, ∀ frame,
    turn.request = some frame → ∀ o ∈ turn.output, IsRelay o.2 → ∃ text, Relays frame o.2 text)
    ?_ (fun s t hr hs hst => ?_) hr
  · rintro _ ⟨maxQueueBytes, heap, -, rfl⟩
    exact nofun
  · rcases Step.quiet_or_turn hst with hquiet | ⟨i, turn, hturn⟩
    · rw [turns_of_silent hquiet]
      exact hs
    · rw [hturn.turns_eq]
      intro turn' hmem frame hreq o ho hrelay
      rcases List.mem_append.mp hmem with hmem | hmem
      · exact hs turn' hmem frame hreq o ho hrelay
      · rw [List.mem_singleton.mp hmem] at hreq ho
        exact hrelay.elim (hturn.relays_chat hr hreq ho) (hturn.relays_dm hr hreq ho)

end Core
end ChannelWire
