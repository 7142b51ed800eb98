import ChannelWire.Core.Outputs

/-!
# What an ERROR tells

A request is refused for one of sixteen reasons, and the text of the `ERROR` is the reason
(`Refuses`).  Every handler that does not refuse its request enqueues no `ERROR`, so a client is
told a reason exactly if it is one (`errors_tell_why`), and no other `ERROR` is ever enqueued
(`mem_reasons`).
-/

namespace ChannelWire
namespace Core

/-- **Why a request is refused**, and the text that says so. -/
inductive Refuses (s : Server) (i : Slot) (frame : Frame) : Bytes → Prop where
  | unknownType : ClientMsgType.ofByte frame.type = none →
      Refuses s i frame (ascii "unknown message type")
  | invalidUsername : frame.type ∈ [ClientMsgType.hello.toByte, ClientMsgType.nick.toByte] →
      readName frame.payload cwNameCap = none → Refuses s i frame (ascii "invalid username")
  | usernameInUse {name : Bytes} :
      frame.type ∈ [ClientMsgType.hello.toByte, ClientMsgType.nick.toByte] →
      readName frame.payload cwNameCap = some name → usernameInUse s name i = true →
      Refuses s i frame (ascii "username already in use")
  | unregistered : frame.type ∈ [ClientMsgType.join.toByte, ClientMsgType.switch.toByte,
        ClientMsgType.say.toByte, ClientMsgType.dm.toByte] →
      (s.clients i).registered = false → Refuses s i frame (ascii "send HELLO first")
  | invalidChannel : frame.type ∈ [ClientMsgType.join.toByte, ClientMsgType.switch.toByte,
        ClientMsgType.leave.toByte] →
      (frame.type = ClientMsgType.leave.toByte ∨ (s.clients i).registered = true) →
      readName frame.payload cwChannelCap = none → Refuses s i frame (ascii "invalid channel")
  | tooManyChannels {name : Bytes} : frame.type = ClientMsgType.join.toByte →
      (s.clients i).registered = true → readName frame.payload cwChannelCap = some name →
      findChannel s name = none → cwMaxChannels ≤ s.channels.length →
      Refuses s i frame (ascii "too many channels")
  | notJoined {name : Bytes} : frame.type = ClientMsgType.switch.toByte →
      (s.clients i).registered = true → readName frame.payload cwChannelCap = some name →
      (findChannel s name).filter (s.clients i).joined = none →
      Refuses s i frame (ascii "join channel before switching")
  | notInChannel {name : Bytes} : frame.type = ClientMsgType.leave.toByte →
      readName frame.payload cwChannelCap = some name →
      (findChannel s name).filter (s.clients i).joined = none →
      Refuses s i frame (ascii "not in channel")
  | noActiveChannel : frame.type = ClientMsgType.say.toByte → (s.clients i).registered = true →
      (s.clients i).activeChannel = [] → Refuses s i frame (ascii "join a channel before sending")
  | invalidMessage : frame.type = ClientMsgType.say.toByte → (s.clients i).registered = true →
      (s.clients i).activeChannel ≠ [] →
      (readOneStringPayload frame.payload (cwTextCap + 1)).filter (· ≠ []) = none →
      Refuses s i frame (ascii "invalid message")
  | invalidDm : frame.type = ClientMsgType.dm.toByte → (s.clients i).registered = true →
      readDmPayload frame.payload = none → Refuses s i frame (ascii "invalid direct message")
  | userNotFound {name text : Bytes} : frame.type = ClientMsgType.dm.toByte →
      (s.clients i).registered = true → readDmPayload frame.payload = some (name, text) →
      findUser s name = none → Refuses s i frame (ascii "user not found")
  | nobodyToList : frame.type = ClientMsgType.who.toByte →
      findChannel s (s.clients i).activeChannel = none →
      Refuses s i frame (ascii "join a channel before listing participants")
  | whoTooLarge {idx : ℕ} : frame.type = ClientMsgType.who.toByte →
      findChannel s (s.clients i).activeChannel = some idx →
      appendLines cwMaxPayloadSize [] ((members s idx).map fun j => (s.clients j).username) =
        none → Refuses s i frame (ascii "WHO response too large")
  | listTooLarge : frame.type = ClientMsgType.list.toByte →
      appendLines cwMaxPayloadSize [] s.channels = none →
      Refuses s i frame (ascii "LIST response too large")
  | statsTooLarge : frame.type = ClientMsgType.stats.toByte →
      cwMaxPayloadSize ≤ (statsText s).length → Refuses s i frame (ascii "stats response too large")

/-- A request is refused for a reason, or no `ERROR` is enqueued. -/
def RefusedOrServed (s : Server) (i : Slot) (frame : Frame) (t : Server) : Prop :=
  (∃ text, Refuses s i frame text ∧ t = safeEnqueueText s i .error text) ∨ Enqueues NoError s t

section Handlers

variable {s t : Server} {i : Slot} {frame : Frame} {text : Bytes} {k : ℕ}

theorem RefusedOrServed.refused (h : Refuses s i frame text) :
    RefusedOrServed s i frame (safeEnqueueText s i .error text) := .inl ⟨text, h, rfl⟩

theorem noError_of_type {type : ServerMsgType} (hne : type ≠ .error) {frame : Frame}
    (h : frame.type = type.toByte) : NoError frame := by
  rw [NoError, h]
  exact fun heq => hne (ServerMsgType.toByte_inj.mp heq)

/-- A full table is left as it is. -/
theorem ensureChannel_eq_none {name : Bytes} (h : ensureChannel s name = (none, t)) :
    findChannel s name = none ∧ cwMaxChannels ≤ s.channels.length ∧ t = s := by
  unfold ensureChannel at h
  cases hfind : findChannel s name with
  | some idx =>
    rw [hfind] at h
    cases h
  | none =>
    rw [hfind] at h
    by_cases hfull : cwMaxChannels ≤ s.channels.length
    · rw [if_pos hfull] at h
      exact ⟨rfl, hfull, (Prod.mk.inj h).2.symm⟩
    · rw [if_neg hfull] at h
      cases h

theorem handleHello_refusedOrServed (ht : frame.type = ClientMsgType.hello.toByte) :
    RefusedOrServed s i frame (handleHello s i frame.payload) := by
  have htype : frame.type ∈ [ClientMsgType.hello.toByte, ClientMsgType.nick.toByte] := by
    rw [ht]
    decide
  unfold handleHello
  cases hname : readName frame.payload cwNameCap with
  | none => exact .refused (.invalidUsername htype hname)
  | some name =>
    simp only
    split_ifs with hu
    · exact .refused (.usernameInUse htype hname hu)
    · exact .inr (.noError i _ rfl (by decide))

theorem handleNick_refusedOrServed (ht : frame.type = ClientMsgType.nick.toByte) :
    RefusedOrServed s i frame (handleNick s i frame.payload) := by
  have htype : frame.type ∈ [ClientMsgType.hello.toByte, ClientMsgType.nick.toByte] := by
    rw [ht]
    decide
  unfold handleNick
  cases hname : readName frame.payload cwNameCap with
  | none => exact .refused (.invalidUsername htype hname)
  | some name =>
    simp only
    by_cases hu : usernameInUse s name i = true
    · rw [if_pos hu]
      exact .refused (.usernameInUse htype hname hu)
    · rw [if_neg hu]
      refine .inr (Enqueues.trans (Enqueues.noError i (ascii "username changed") ?_ (by decide))
        ((Enqueues.broadcastSystem i _).mono fun _ => noError_of_type (by decide)))
      rfl

theorem joinChannel_refusedOrServed (ht : frame.type = ClientMsgType.join.toByte) :
    RefusedOrServed s i frame (joinChannel s i frame.payload true) := by
  unfold joinChannel
  by_cases hreg : (s.clients i).registered = false
  · rw [if_pos hreg]
    exact .refused (.unregistered (by rw [ht]; decide) hreg)
  · rw [if_neg hreg]
    rw [Bool.not_eq_false] at hreg
    cases hname : readName frame.payload cwChannelCap with
    | none => exact .refused (.invalidChannel (by rw [ht]; decide) (.inr hreg) hname)
    | some name =>
      have hclients := ensureChannel_clients s name
      simp only
      cases he : ensureChannel s name with
      | mk found t =>
        cases found with
        | none =>
          obtain ⟨hfind, hfull, rfl⟩ := ensureChannel_eq_none he
          exact .refused (.tooManyChannels ht hreg hname hfind hfull)
        | some idx =>
          obtain ⟨-, -, hs⟩ := readName_eq_some hname
          obtain ⟨-, rfl | ⟨-, rfl⟩⟩ := ensureChannel_channels hs he <;>
            exact .inr (.noError i _ rfl (by decide))

theorem switchChannel_refusedOrServed (ht : frame.type = ClientMsgType.switch.toByte) :
    RefusedOrServed s i frame (switchChannel s i frame.payload) := by
  unfold switchChannel
  split_ifs with hreg
  · exact .refused (.unregistered (by rw [ht]; decide) hreg)
  · rw [Bool.not_eq_false] at hreg
    cases hname : readName frame.payload cwChannelCap with
    | none => exact .refused (.invalidChannel (by rw [ht]; decide) (.inr hreg) hname)
    | some name =>
      simp only
      cases hf : (findChannel s name).filter (s.clients i).joined with
      | none => exact .refused (.notJoined ht hreg hname hf)
      | some idx => exact .inr (.noError i _ rfl (by decide))

theorem leaveChannel_refusedOrServed (ht : frame.type = ClientMsgType.leave.toByte) :
    RefusedOrServed s i frame (leaveChannel s i frame.payload) := by
  unfold leaveChannel
  cases hname : readName frame.payload cwChannelCap with
  | none => exact .refused (.invalidChannel (by rw [ht]; decide) (.inl ht) hname)
  | some name =>
    simp only
    cases hf : (findChannel s name).filter (s.clients i).joined with
    | none => exact .refused (.notInChannel ht hname hf)
    | some idx => exact .inr (.noError i _ rfl (by decide))

theorem handleSay_refusedOrServed (hc : ChannelsOk s) (hv : NamesOk s)
    (ht : frame.type = ClientMsgType.say.toByte) :
    RefusedOrServed s i frame (handleSay s i frame.payload) := by
  unfold handleSay
  split_ifs with hreg hact
  · exact .refused (.unregistered (by rw [ht]; decide) hreg)
  · rw [Bool.not_eq_false] at hreg
    exact .refused (.noActiveChannel ht hreg hact)
  · rw [Bool.not_eq_false] at hreg
    cases hread : (readOneStringPayload frame.payload (cwTextCap + 1)).filter (· ≠ []) with
    | none => exact .refused (.invalidMessage ht hreg hact hread)
    | some text =>
      -- the active channel exists and the payload fits, so the two refusals of `broadcast_chat`
      -- are out of reach
      obtain ⟨htext, -⟩ := Option.filter_eq_some_iff.mp hread
      obtain ⟨idx, hfind, -⟩ := hc.findChannel_active hact
      have hlen := Nat.le_of_lt_succ (length_readOneStringPayload _ htext)
      simp only [broadcastChat, hfind, cwWriteStrings_chat hc hv hlen]
      refine .inr ((Enqueues.chatSent i idx text).mono ?_)
      rintro _ rfl
      exact noError_of_type (by decide : ServerMsgType.chat ≠ .error) rfl

theorem handleDm_refusedOrServed (hv : NamesOk s) (ht : frame.type = ClientMsgType.dm.toByte) :
    RefusedOrServed s i frame (handleDm s i frame.payload) := by
  unfold handleDm
  split_ifs with hreg
  · exact .refused (.unregistered (by rw [ht]; decide) hreg)
  · rw [Bool.not_eq_false] at hreg
    cases hread : readDmPayload frame.payload with
    | none => exact .refused (.invalidDm ht hreg hread)
    | some fields =>
      obtain ⟨name, text⟩ := fields
      simp only
      cases hfind : findUser s name with
      | none => exact .refused (.userNotFound ht hreg hread hfind)
      | some target =>
        simp only [enqueueStrings, cwWriteStrings_dm hv hread]
        by_cases hroom : Accepts s target (dmPayload (s.clients i) text)
        · have hsent := Enqueues.sentDm (s := s) i target (dmPayload (s.clients i) text)
          rw [enqueueOrDisconnect_of_accepts hroom] at hsent
          rw [enqueuePayload_of_accepts hroom]
          refine .inr (hsent.mono ?_)
          rintro _ (rfl | rfl)
          · exact noError_of_type (by decide : ServerMsgType.dmRecv ≠ .error) rfl
          · exact noError_of_type (by decide : ServerMsgType.ok ≠ .error) rfl
        · have hlost := Enqueues.noError (s := s) target (dmPayload (s.clients i) text) rfl
            (by decide : ServerMsgType.dmRecv ≠ .error)
          obtain ⟨heap, hq⟩ := enqueuePayload_of_not_accepts .dmRecv hroom
          rw [enqueueOrDisconnect, hq] at hlost
          rw [hq]
          exact .inr hlost

theorem sendWho_refusedOrServed (ht : frame.type = ClientMsgType.who.toByte) :
    RefusedOrServed s i frame (sendWho s i) := by
  unfold sendWho
  cases hfind : findChannel s (s.clients i).activeChannel with
  | none => exact .refused (.nobodyToList ht hfind)
  | some idx =>
    simp only
    cases hlines : appendLines cwMaxPayloadSize []
        ((members s idx).map fun j => (s.clients j).username) with
    | none => exact .refused (.whoTooLarge ht hfind hlines)
    | some payload => exact .inr (.noError i _ rfl (by decide))

theorem sendList_refusedOrServed (ht : frame.type = ClientMsgType.list.toByte) :
    RefusedOrServed s i frame (sendList s i) := by
  unfold sendList
  cases hlines : appendLines cwMaxPayloadSize [] s.channels with
  | none => exact .refused (.listTooLarge ht hlines)
  | some payload => exact .inr (.noError i _ rfl (by decide))

theorem sendStats_refusedOrServed (ht : frame.type = ClientMsgType.stats.toByte) :
    RefusedOrServed s i frame (sendStats s i) := by
  unfold sendStats
  simp only
  split_ifs with hlarge
  · exact .refused (.statsTooLarge ht hlarge)
  · exact .inr (.noError i _ rfl (by decide))

theorem handleFrame_refusedOrServed (hc : ChannelsOk s) (hv : NamesOk s) (i : Slot)
    (frame : Frame) : RefusedOrServed s i frame (handleFrame s i frame.type frame.payload) := by
  unfold handleFrame
  cases ht : ClientMsgType.ofByte frame.type with
  | none => exact .refused (.unknownType ht)
  | some type =>
    have hbyte := ClientMsgType.ofByte_eq_some.mp ht
    cases type with
    | hello => exact handleHello_refusedOrServed hbyte
    | join => exact joinChannel_refusedOrServed hbyte
    | switch => exact switchChannel_refusedOrServed hbyte
    | leave => exact leaveChannel_refusedOrServed hbyte
    | say => exact handleSay_refusedOrServed hc hv hbyte
    | dm => exact handleDm_refusedOrServed hv hbyte
    | who => exact sendWho_refusedOrServed hbyte
    | list => exact sendList_refusedOrServed hbyte
    | nick => exact handleNick_refusedOrServed hbyte
    | quit => exact .inr (.disconnect i _)
    | stats => exact sendStats_refusedOrServed hbyte

/-- **A reason is told.** -/
theorem Refuses.handleFrame_eq (h : Refuses s i frame text) :
    handleFrame s i frame.type frame.payload = safeEnqueueText s i .error text := by
  cases h with
  | unknownType ht => rw [handleFrame, ht]
  | invalidUsername ht hname =>
    simp only [List.mem_cons, List.not_mem_nil, or_false] at ht
    rcases ht with ht | ht <;> rw [handleFrame, ht, ClientMsgType.ofByte_toByte] <;>
      simp only [handleHello, handleNick, hname]
  | usernameInUse ht hname hu =>
    simp only [List.mem_cons, List.not_mem_nil, or_false] at ht
    rcases ht with ht | ht <;> rw [handleFrame, ht, ClientMsgType.ofByte_toByte] <;>
      simp only [handleHello, handleNick, hname, hu, if_true]
  | unregistered ht hreg =>
    simp only [List.mem_cons, List.not_mem_nil, or_false] at ht
    rcases ht with ht | ht | ht | ht <;> rw [handleFrame, ht, ClientMsgType.ofByte_toByte] <;>
      simp only [joinChannel, switchChannel, handleSay, handleDm, hreg, if_true]
  | invalidChannel ht hreg hname =>
    simp only [List.mem_cons, List.not_mem_nil, or_false] at ht
    rcases ht with ht | ht | ht
    · have hreg := hreg.resolve_left (by rw [ht]; decide)
      rw [handleFrame, ht, ClientMsgType.ofByte_toByte]
      simp only [joinChannel, hreg, hname, Bool.true_eq_false, if_false]
    · have hreg := hreg.resolve_left (by rw [ht]; decide)
      rw [handleFrame, ht, ClientMsgType.ofByte_toByte]
      simp only [switchChannel, hreg, hname, Bool.true_eq_false, if_false]
    · rw [handleFrame, ht, ClientMsgType.ofByte_toByte]
      simp only [leaveChannel, hname]
  | tooManyChannels ht hreg hname hfind hfull =>
    rw [handleFrame, ht, ClientMsgType.ofByte_toByte]
    simp only [joinChannel, ensureChannel, hreg, hname, hfind, hfull, Bool.true_eq_false, if_false,
      if_true]
  | notJoined ht hreg hname hf =>
    rw [handleFrame, ht, ClientMsgType.ofByte_toByte]
    simp only [switchChannel, hreg, hname, hf, Bool.true_eq_false, if_false]
  | notInChannel ht hname hf =>
    rw [handleFrame, ht, ClientMsgType.ofByte_toByte]
    simp only [leaveChannel, hname, hf]
  | noActiveChannel ht hreg hact =>
    rw [handleFrame, ht, ClientMsgType.ofByte_toByte]
    simp only [handleSay, hreg, hact, Bool.true_eq_false, if_false, if_true]
  | invalidMessage ht hreg hact hread =>
    rw [handleFrame, ht, ClientMsgType.ofByte_toByte]
    simp only [handleSay, hreg, hact, hread, Bool.true_eq_false, if_false]
  | invalidDm ht hreg hread =>
    rw [handleFrame, ht, ClientMsgType.ofByte_toByte]
    simp only [handleDm, hreg, hread, Bool.true_eq_false, if_false]
  | userNotFound ht hreg hread hfind =>
    rw [handleFrame, ht, ClientMsgType.ofByte_toByte]
    simp only [handleDm, hreg, hread, hfind, Bool.true_eq_false, if_false]
  | nobodyToList ht hfind =>
    rw [handleFrame, ht, ClientMsgType.ofByte_toByte]
    simp only [sendWho, hfind]
  | whoTooLarge ht hfind hlines =>
    rw [handleFrame, ht, ClientMsgType.ofByte_toByte]
    simp only [sendWho, hfind, hlines]
  | listTooLarge ht hlines =>
    rw [handleFrame, ht, ClientMsgType.ofByte_toByte]
    simp only [sendList, hlines]
  | statsTooLarge ht hlarge =>
    rw [handleFrame, ht, ClientMsgType.ofByte_toByte]
    simp only [sendStats, hlarge, if_true]

/-- The `ERROR`s of a request, to anybody. -/
theorem recorded_error_iff (hc : ChannelsOk s) (hv : NamesOk s) :
    .enqueued k ⟨ServerMsgType.error.toByte, text⟩ ∈
        recorded s (handleFrame s i frame.type frame.payload) ↔
      k = (s.clients i).conn ∧ Refuses s i frame text ∧ Accepts s i text := by
  constructor
  · intro he
    rcases handleFrame_refusedOrServed hc hv i frame with ⟨text', hrefuses, heq⟩ | hnone
    · rw [heq] at he
      obtain ⟨hk, -⟩ := eq_of_recorded_reply he
      obtain ⟨haccepts, -, rfl⟩ := reply_recorded rfl he
      exact ⟨hk, hrefuses, haccepts⟩
    · exact absurd rfl (hnone.mem_recorded he)
  · rintro ⟨rfl, hrefuses, haccepts⟩
    rw [hrefuses.handleFrame_eq, safeEnqueueText, enqueueOrDisconnect_of_accepts haccepts, recorded,
      pushFrame_trace, Server.setHeap_trace, List.drop_left]
    exact List.mem_singleton_self _

end Handlers

/-! ## Every run -/

/-- The reasons for which a request is refused, and the one for which a header is. -/
def reasons : List Bytes :=
  ["unknown message type", "invalid username", "username already in use", "send HELLO first",
    "invalid channel", "too many channels", "join channel before switching", "not in channel",
    "join a channel before sending", "invalid message", "invalid direct message", "user not found",
    "join a channel before listing participants", "WHO response too large",
    "LIST response too large", "stats response too large", "malformed frame"].map ascii

variable {s t : Server} {i : Slot} {frame : Frame} {text : Bytes} {k : ℕ}

theorem Refuses.mem_reasons (h : Refuses s i frame text) : text ∈ reasons := by
  cases h <;> decide +kernel

/-- What a step enqueues, it enqueues for a request or for a malformed header. -/
theorem Step.for_request (hst : Step s t) (he : .enqueued k frame ∈ recorded s t) :
    (∃ i, .enqueued k frame ∈ recorded s (rejectHeader s i)) ∨
    ∃ i request, .enqueued k frame ∈ recorded (s.emit (.handled (s.clients i).conn request))
      (handleFrame (s.emit (.handled (s.clients i).conn request)) i request.type
        request.payload) := by
  rcases hst.quiet_or_turn with ⟨es, htrace, hes⟩ | ⟨i, turn, hturn⟩
  · rw [recorded, htrace, List.drop_left] at he
    exact absurd (.inr (List.cons_ne_nil _ _)) (hes _ he)
  · have hrequest := hturn.request
    have hdrain := drainTurn_eq s i
    cases hreq : turn.request with
    | none =>
      rw [hreq] at hrequest
      rw [hrequest] at hdrain
      rw [hturn.step, hdrain] at he
      exact .inl ⟨i, he⟩
    | some request =>
      rw [hreq] at hrequest
      obtain ⟨n, hhead⟩ := hrequest
      rw [hhead] at hdrain
      rw [hturn.step, hdrain, recorded, serveFrame_trace] at he
      obtain ⟨es, hsaid⟩ := (handleFrame_actions (i := i)
        (s := s.emit (.handled (s.clients i).conn request)) request.type request.payload
        hturn.live).said
      rw [hsaid.trace, Server.emit_trace, List.append_assoc, List.drop_left] at he
      refine .inr ⟨i, request, ?_⟩
      rw [recorded, hsaid.trace, List.drop_left]
      rcases List.mem_cons.mp he with he | he
      · cases he
      · exact he

theorem Step.mem_reasons (h : Reachable s) (hst : Step s t)
    (he : .enqueued k ⟨ServerMsgType.error.toByte, text⟩ ∈ recorded s t) : text ∈ reasons := by
  rcases hst.for_request he with ⟨i, he⟩ | ⟨i, request, he⟩
  · have hrejected : Enqueues (fun frame => frame.payload ∈ reasons) s (rejectHeader s i) := by
      refine (Enqueues.trans (.of_trace (Server.setStats_trace s _))
        (.emit fun _ _ h => by cases h)).trans ((Enqueues.enqueue i .error _).mono ?_)
      rintro _ ⟨-, rfl⟩
      show ascii "malformed frame" ∈ reasons
      decide +kernel
    exact hrejected.mem_recorded he
  · obtain ⟨-, hrefuses, -⟩ := (recorded_error_iff ((channelsOk h.moveReachable).emit _)
      ((namesOk h.moveReachable).emit _)).mp he
    exact hrefuses.mem_reasons

/-- **Every `ERROR` gives a reason.** -/
theorem mem_reasons (h : Reachable s)
    (he : .enqueued k ⟨ServerMsgType.error.toByte, text⟩ ∈ s.trace) : text ∈ reasons := by
  revert k text
  refine Transition.Reachable.invariant (P := fun s => ∀ {k : ℕ} {text : Bytes},
    .enqueued k ⟨ServerMsgType.error.toByte, text⟩ ∈ s.trace → text ∈ reasons) ?_ ?_ h
  · rintro s ⟨maxQueueBytes, heap, -, rfl⟩ k text he
    cases he
  · intro s t hs ih hst k text he
    obtain ⟨es, htrace⟩ := Step.trace_prefix hst
    rw [← htrace] at he
    rcases List.mem_append.mp he with he | he
    · exact ih he
    · refine Step.mem_reasons (k := k) hs hst ?_
      rw [recorded, ← htrace, List.drop_left]
      exact he

/-- **A client is told why.**  In every reachable state, for every client and every request of it:
an `ERROR` is enqueued exactly if the request is refused for the reason that the `ERROR` gives, its
frame has room and `calloc` has memory for it, and it is enqueued to the client that has asked. -/
theorem errors_tell_why (h : Reachable s) (i : Slot) (frame : Frame) (k : ℕ) (text : Bytes) :
    .enqueued k ⟨ServerMsgType.error.toByte, text⟩ ∈
        recorded s (handleFrame s i frame.type frame.payload) ↔
      k = (s.clients i).conn ∧ Refuses s i frame text ∧ Accepts s i text :=
  recorded_error_iff (channelsOk h.moveReachable) (namesOk h.moveReachable)

/-- `alice` asks for a name that is taken. -/
theorem errors_tell_why_room : Refuses roomWithText 0 ⟨9, stringField (ascii "bob")⟩
    (ascii "username already in use") :=
  ((errors_tell_why reachable_roomWithText 0 ⟨9, stringField (ascii "bob")⟩
    (roomWithText.clients 0).conn _).mp (by decide +kernel)).2.1

end Core
end ChannelWire
