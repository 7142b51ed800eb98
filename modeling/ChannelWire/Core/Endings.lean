import ChannelWire.Core.Broadcast
import ChannelWire.Core.ChannelInvariant
import ChannelWire.Core.NameInvariant

/-!
# How a request can end

The eleven commands of `handle_frame` have some thirty branches, but only a dozen ways to end:
`Ending` lists them, each with the guards that lead to it and with the state it leaves.  All
refusals are one of them, since a refusal is an `ERROR` to the client and nothing else.

The strings of a request fit the payload of what the server makes of them, because names are
short and texts are read into a buffer of `CW_TEXT_CAP` bytes.  So the two errors for texts that
are too long are never sent, and `Ending` has no place for a direct message that does not fit.
-/

namespace ChannelWire
namespace Core

open LinkedQueue

/-! ## What fits -/

/-- A text fits the buffer it is read into. -/
theorem length_readOneStringPayload (payload : Bytes) {text : Bytes} {cap : ℕ}
    (h : readOneStringPayload payload cap = some text) : text.length < cap := by
  unfold readOneStringPayload at h
  cases hr : cwReadString payload 0 cap with
  | none => simp [hr] at h
  | some r =>
    obtain ⟨out, offset⟩ := r
    simp only [hr] at h
    split_ifs at h
    rw [← Option.some.inj h]
    exact lt_of_le_of_lt (length_cstr_le out) (cwReadString_bounds hr).1

theorem length_readDmPayload (payload : Bytes) {target text : Bytes}
    (h : readDmPayload payload = some (target, text)) : text.length ≤ cwTextCap := by
  unfold readDmPayload at h
  cases hr : cwReadString payload 0 (cwNameCap + 1) with
  | none => simp [hr] at h
  | some r =>
    obtain ⟨out, offset⟩ := r
    simp only [hr] at h
    cases hr' : cwReadString payload offset (cwTextCap + 1) with
    | none => simp [hr'] at h
    | some r' =>
      obtain ⟨out', offset'⟩ := r'
      simp only [hr'] at h
      split_ifs at h
      obtain ⟨-, rfl⟩ := Prod.mk.inj (Option.some.inj h)
      have hlen := length_cstr_le out'
      have hlt := (cwReadString_bounds hr').1
      omega

/-- The name of a client is empty or valid, so it is short. -/
theorem NamesOk.length_username {s : Server} (hv : NamesOk s) (i : Slot) :
    (s.clients i).username.length ≤ cwNameCap := by
  by_cases hne : (s.clients i).username = []
  · rw [hne]
    exact Nat.zero_le _
  · exact (hv.valid i hne).length_le

theorem ChannelsOk.length_activeChannel {s : Server} (hc : ChannelsOk s) (i : Slot) :
    (s.clients i).activeChannel.length ≤ cwChannelCap := by
  rcases (hc.clients i).active with hact | ⟨idx, hch, -⟩
  · rw [hact]
    exact Nat.zero_le _
  · exact (hc.valid _ (List.mem_of_getElem? hch)).length_le

/-- The payload of the `CHAT` that carries a text of the client. -/
def chatPayload (c : Client) (text : Bytes) : Bytes :=
  ([c.activeChannel, c.username, text].map stringField).flatten

/-- The payload of the `DM_RECV` that carries a text of the client. -/
def dmPayload (c : Client) (text : Bytes) : Bytes := ([c.username, text].map stringField).flatten

/-- The three strings of a channel message fit a payload. -/
theorem cwWriteStrings_chat {s : Server} {i : Slot} {text : Bytes} (hc : ChannelsOk s)
    (hv : NamesOk s) (htext : text.length ≤ cwTextCap) :
    cwWriteStrings cwMaxPayloadSize []
        [(s.clients i).activeChannel, (s.clients i).username, text] =
      some (chatPayload (s.clients i) text) := by
  have hname := hv.length_username i
  have hchannel := hc.length_activeChannel i
  unfold cwNameCap at hname
  unfold cwChannelCap at hchannel
  unfold cwTextCap at htext
  refine cwWriteStrings_eq (fun v hv => ?_) ?_
  · unfold cwMaxStringSize
    simp only [List.mem_cons, List.not_mem_nil, or_false] at hv
    rcases hv with rfl | rfl | rfl <;> omega
  · simp only [List.map_cons, List.map_nil, List.flatten_cons, List.flatten_nil,
      List.length_append, length_stringField, List.length_nil, cwMaxPayloadSize]
    omega

/-- The two strings of a direct message fit a payload. -/
theorem cwWriteStrings_dm {s : Server} {i : Slot} {payload target text : Bytes} (hv : NamesOk s)
    (h : readDmPayload payload = some (target, text)) :
    cwWriteStrings cwMaxPayloadSize [] [(s.clients i).username, text] =
      some (dmPayload (s.clients i) text) := by
  have hname := hv.length_username i
  have htext := length_readDmPayload payload h
  unfold cwNameCap at hname
  unfold cwTextCap at htext
  refine cwWriteStrings_eq (fun v hv => ?_) ?_
  · unfold cwMaxStringSize
    simp only [List.mem_cons, List.not_mem_nil, or_false] at hv
    rcases hv with rfl | rfl <;> omega
  · simp only [List.map_cons, List.map_nil, List.flatten_cons, List.flatten_nil,
      List.length_append, length_stringField, List.length_nil, cwMaxPayloadSize]
    omega

/-! ## The guards of the commands with an effect on others -/

/-- `broadcast_chat` accepts the text of a `SAY`, for the channel with this index. -/
structure AcceptsSay (s : Server) (i : Slot) (frame : Frame) (idx : ℕ) (text : Bytes) : Prop where
  say : frame.type = ClientMsgType.say.toByte
  registered : (s.clients i).registered = true
  channel : findChannel s (s.clients i).activeChannel = some idx
  read : readOneStringPayload frame.payload (cwTextCap + 1) = some text
  nonempty : text ≠ []

/-- A `DM` names the live registered client of slot `target`. -/
structure AcceptsDm (s : Server) (i : Slot) (frame : Frame) (target : Slot) (text : Bytes) :
    Prop where
  dm : frame.type = ClientMsgType.dm.toByte
  registered : (s.clients i).registered = true
  found : ∃ name, readDmPayload frame.payload = some (name, text) ∧ findUser s name = some target

/-- The name of a `HELLO` or `NICK` is valid and nobody else has it. -/
structure AcceptsName (s : Server) (i : Slot) (frame : Frame) (name : Bytes) : Prop where
  read : readName frame.payload cwNameCap = some name
  free : usernameInUse s name i = false

/-- The client takes a name. -/
def takeName (s : Server) (i : Slot) (name : Bytes) : Server :=
  s.setClient i { s.clients i with username := name, registered := true }

/-- What the members of its active channel are told of a client that took another name. -/
def nickNotice (c : Client) (name : Bytes) : Bytes :=
  let oldName := snprintf (cwNameCap + 1) c.username
  snprintf 160 ((if oldName = [] then ascii "anonymous" else oldName) ++ ascii " is now " ++ name)

/-- The client enters a channel, which becomes its active one. -/
def enterChannel (s : Server) (i : Slot) (idx : ℕ) (name : Bytes) : Server :=
  s.setClient i { s.clients i with
    joined := Function.update (s.clients i).joined idx true, activeChannel := name }

/-- The client leaves a channel. -/
def exitChannel (s : Server) (i : Slot) (idx : ℕ) (name : Bytes) : Server :=
  s.setClient i { s.clients i with
    joined := Function.update (s.clients i).joined idx false
    activeChannel := if (s.clients i).activeChannel = name then []
      else (s.clients i).activeChannel }

/-- The end of a `broadcast_chat` that accepts the text. -/
def chatSent (s : Server) (i : Slot) (idx : ℕ) (text : Bytes) : Server :=
  let c := s.clients i
  let s := chatLoop (announce s i idx ⟨c.activeChannel, c.username, text⟩) idx (chatPayload c text)
  s.setStats { s.stats with channelMessages := s.stats.channelMessages + 1 }

/-- A direct message is counted. -/
def countDm (s : Server) : Server :=
  s.setStats { s.stats with directMessages := s.stats.directMessages + 1 }

/-! ## The ends -/

/-- **How a request can end**: the guards, and the state that is left. -/
inductive Ending (s : Server) (i : Slot) (frame : Frame) : Server → Prop where
  /-- The client is told why nothing was done. -/
  | refused (text : Bytes) : Ending s i frame (safeEnqueueText s i .error text)
  | registered {name : Bytes} : frame.type = ClientMsgType.hello.toByte →
      AcceptsName s i frame name →
      Ending s i frame (safeEnqueueText (takeName s i name) i .ok (ascii "registered"))
  | renamed {name : Bytes} : frame.type = ClientMsgType.nick.toByte →
      AcceptsName s i frame name →
      Ending s i frame (broadcastSystemToActiveChannel
        (safeEnqueueText (takeName s i name) i .ok (ascii "username changed")) i
        (nickNotice (s.clients i) name))
  | joined {t : Server} {idx : ℕ} {name : Bytes} : frame.type = ClientMsgType.join.toByte →
      (s.clients i).registered = true → readName frame.payload cwChannelCap = some name →
      ensureChannel s name = (some idx, t) →
      Ending s i frame
        (safeEnqueueText (enterChannel t i idx name) i .ok (ascii "joined " ++ name))
  | switched {idx : ℕ} {name : Bytes} : frame.type = ClientMsgType.switch.toByte →
      readName frame.payload cwChannelCap = some name → findChannel s name = some idx →
      (s.clients i).joined idx = true →
      Ending s i frame (safeEnqueueText
        (s.setClient i { s.clients i with activeChannel := name }) i .ok
        (ascii "switched " ++ name))
  | left {idx : ℕ} {name : Bytes} : frame.type = ClientMsgType.leave.toByte →
      readName frame.payload cwChannelCap = some name → findChannel s name = some idx →
      (s.clients i).joined idx = true →
      Ending s i frame (safeEnqueueText (exitChannel s i idx name) i .ok (ascii "left channel"))
  | said {idx : ℕ} {text : Bytes} : AcceptsSay s i frame idx text →
      Ending s i frame (chatSent s i idx text)
  | sentDm {target : Slot} {text : Bytes} : AcceptsDm s i frame target text →
      Accepts s target (dmPayload (s.clients i) text) →
      Ending s i frame (safeEnqueueText
        (countDm (enqueueOrDisconnect s target .dmRecv (dmPayload (s.clients i) text))) i .ok
        sentText)
  /-- The addressee has no room, and is disconnected. -/
  | lostDm {target : Slot} {text : Bytes} : AcceptsDm s i frame target text →
      ¬ Accepts s target (dmPayload (s.clients i) text) →
      Ending s i frame (enqueueOrDisconnect s target .dmRecv (dmPayload (s.clients i) text))
  | queried {type : ServerMsgType} (text : Bytes) :
      type ∈ [ServerMsgType.whoResp, .listResp, .statsResp] →
      frame.type ∈ [ClientMsgType.who.toByte, ClientMsgType.list.toByte,
        ClientMsgType.stats.toByte] →
      Ending s i frame (safeEnqueueText s i type text)
  | quit : frame.type = ClientMsgType.quit.toByte →
      Ending s i frame (disconnectClient s i .clientQuit)

section Handlers

variable {s : Server} {i : Slot} {frame : Frame}

theorem handleHello_ending (ht : frame.type = ClientMsgType.hello.toByte) :
    Ending s i frame (handleHello s i frame.payload) := by
  unfold handleHello
  cases hname : readName frame.payload cwNameCap with
  | none => exact .refused _
  | some name =>
    obtain ⟨-, -, hs⟩ := readName_eq_some hname
    simp only [hs]
    split_ifs with hu
    · exact .refused _
    · exact .registered ht ⟨hname, by simpa using hu⟩

theorem handleNick_ending (ht : frame.type = ClientMsgType.nick.toByte) :
    Ending s i frame (handleNick s i frame.payload) := by
  unfold handleNick
  cases hname : readName frame.payload cwNameCap with
  | none => exact .refused _
  | some name =>
    obtain ⟨-, -, hs⟩ := readName_eq_some hname
    simp only [hs]
    by_cases hu : usernameInUse s name i = true
    · rw [if_pos hu]
      exact .refused _
    · rw [if_neg hu]
      exact .renamed ht ⟨hname, by simpa using hu⟩

/-- A text of at most 95 bytes is stored whole. -/
theorem snprintf_channel {name : Bytes} (word : Bytes) (hv : ValidName name)
    (hword : word.length ≤ 60) : snprintf 96 (word ++ name) = word ++ name := by
  have hlen := hv.length_le
  unfold cwNameCap at hlen
  rw [snprintf, List.take_of_length_le]
  rw [List.length_append]
  omega

theorem joinChannel_ending (ht : frame.type = ClientMsgType.join.toByte) :
    Ending s i frame (joinChannel s i frame.payload true) := by
  unfold joinChannel
  by_cases hreg : (s.clients i).registered = false
  · rw [if_pos hreg]
    exact .refused _
  · rw [if_neg hreg]
    cases hname : readName frame.payload cwChannelCap with
    | none => exact .refused _
    | some name =>
      obtain ⟨-, hv, hs⟩ := readName_eq_some hname
      simp only [hs, if_true]
      have hclients := ensureChannel_clients s name
      have htext : snprintf 96 (ascii "joined" ++ ascii " " ++ name) = ascii "joined " ++ name :=
        snprintf_channel (ascii "joined ") hv (by decide)
      rw [htext]
      cases he : ensureChannel s name with
      | mk found t =>
        rw [he] at hclients
        cases found with
        | none =>
          -- a full table: `ensure_channel` changed nothing
          obtain rfl : t = s := by
            unfold ensureChannel at he
            split at he
            · cases he
            · split_ifs at he
              · exact ((Prod.mk.inj he).2).symm
              · cases he
          exact .refused _
        | some idx => exact .joined ht (by simpa using hreg) hname he

theorem switchChannel_ending (ht : frame.type = ClientMsgType.switch.toByte) :
    Ending s i frame (switchChannel s i frame.payload) := by
  unfold switchChannel
  split_ifs with hreg
  · exact .refused _
  · cases hname : readName frame.payload cwChannelCap with
    | none => exact .refused _
    | some name =>
      obtain ⟨-, hv, hs⟩ := readName_eq_some hname
      simp only [hs]
      cases hf : (findChannel s name).filter (s.clients i).joined with
      | none => exact .refused _
      | some idx =>
        obtain ⟨hfind, hj⟩ := Option.filter_eq_some_iff.mp hf
        simp only
        rw [snprintf_channel (ascii "switched ") hv (by decide)]
        exact .switched ht hname hfind hj

theorem leaveChannel_ending (ht : frame.type = ClientMsgType.leave.toByte) :
    Ending s i frame (leaveChannel s i frame.payload) := by
  unfold leaveChannel
  cases hname : readName frame.payload cwChannelCap with
  | none => exact .refused _
  | some name =>
    simp only
    cases hf : (findChannel s name).filter (s.clients i).joined with
    | none => exact .refused _
    | some idx =>
      obtain ⟨hfind, hj⟩ := Option.filter_eq_some_iff.mp hf
      exact .left ht hname hfind hj

theorem handleSay_ending (hc : ChannelsOk s) (hv : NamesOk s)
    (ht : frame.type = ClientMsgType.say.toByte) :
    Ending s i frame (handleSay s i frame.payload) := by
  unfold handleSay
  split_ifs with hreg hact
  · exact .refused _
  · exact .refused _
  · cases hread : (readOneStringPayload frame.payload (cwTextCap + 1)).filter (· ≠ []) with
    | none => exact .refused _
    | some text =>
      obtain ⟨htext, hne⟩ := Option.filter_eq_some_iff.mp hread
      obtain ⟨idx, hfind, -⟩ := hc.findChannel_active hact
      have hlen := Nat.le_of_lt_succ (length_readOneStringPayload _ htext)
      simp only [broadcastChat, hfind, cwWriteStrings_chat hc hv hlen]
      exact .said ⟨ht, by simpa using hreg, hfind, htext, of_decide_eq_true hne⟩

theorem handleDm_ending (hv : NamesOk s) (ht : frame.type = ClientMsgType.dm.toByte) :
    Ending s i frame (handleDm s i frame.payload) := by
  unfold handleDm
  split_ifs with hreg
  · exact .refused _
  · cases hread : readDmPayload frame.payload with
    | none => exact .refused _
    | some fields =>
      obtain ⟨name, text⟩ := fields
      simp only
      cases hfind : findUser s name with
      | none => exact .refused _
      | some target =>
        have haccepts : AcceptsDm s i frame target text :=
          ⟨ht, by simpa using hreg, name, hread, hfind⟩
        simp only [enqueueStrings, cwWriteStrings_dm hv hread]
        by_cases hroom : Accepts s target (dmPayload (s.clients i) text)
        · have hsent := Ending.sentDm haccepts hroom
          rw [enqueueOrDisconnect_of_accepts hroom] at hsent
          rw [enqueuePayload_of_accepts hroom]
          exact hsent
        · have hlost := Ending.lostDm haccepts hroom
          obtain ⟨heap, hq⟩ := enqueuePayload_of_not_accepts .dmRecv hroom
          rw [enqueueOrDisconnect, hq] at hlost
          rw [hq]
          exact hlost

theorem sendWho_ending (ht : frame.type = ClientMsgType.who.toByte) :
    Ending s i frame (sendWho s i) := by
  unfold sendWho
  split
  · exact .refused _
  · split
    · exact .refused _
    · exact .queried _ (by decide) (by rw [ht]; decide)

theorem sendList_ending (ht : frame.type = ClientMsgType.list.toByte) :
    Ending s i frame (sendList s i) := by
  unfold sendList
  split
  · exact .refused _
  · exact .queried _ (by decide) (by rw [ht]; decide)

theorem sendStats_ending (ht : frame.type = ClientMsgType.stats.toByte) :
    Ending s i frame (sendStats s i) := by
  unfold sendStats
  simp only
  split_ifs
  · exact .refused _
  · exact .queried _ (by decide) (by rw [ht]; decide)

/-- **Every request ends in one of these ways.** -/
theorem handleFrame_ending (hc : ChannelsOk s) (hv : NamesOk s) (i : Slot) (frame : Frame) :
    Ending s i frame (handleFrame s i frame.type frame.payload) := by
  unfold handleFrame
  cases ht : ClientMsgType.ofByte frame.type with
  | none => exact .refused _
  | some type =>
    have hbyte := ClientMsgType.ofByte_eq_some.mp ht
    cases type with
    | hello => exact handleHello_ending hbyte
    | join => exact joinChannel_ending hbyte
    | switch => exact switchChannel_ending hbyte
    | leave => exact leaveChannel_ending hbyte
    | say => exact handleSay_ending hc hv hbyte
    | dm => exact handleDm_ending hv hbyte
    | who => exact sendWho_ending hbyte
    | list => exact sendList_ending hbyte
    | nick => exact handleNick_ending hbyte
    | quit => exact .quit hbyte
    | stats => exact sendStats_ending hbyte

/-! ## From the guards to the end -/

/-- The active channel of a client is never the empty name of one that has none. -/
theorem ChannelsOk.activeChannel_ne_nil (hc : ChannelsOk s) {idx : ℕ}
    (h : findChannel s (s.clients i).activeChannel = some idx) :
    (s.clients i).activeChannel ≠ [] := fun hnil =>
  (hc.valid _ (List.mem_of_getElem? (findChannel_eq_some h))).ne_nil hnil

theorem handleFrame_of_acceptsSay (hc : ChannelsOk s) (hv : NamesOk s) {idx : ℕ} {text : Bytes}
    (h : AcceptsSay s i frame idx text) :
    handleFrame s i frame.type frame.payload = chatSent s i idx text := by
  have hread : (readOneStringPayload frame.payload (cwTextCap + 1)).filter (· ≠ []) = some text :=
    Option.filter_eq_some_iff.mpr ⟨h.read, decide_eq_true h.nonempty⟩
  rw [handleFrame, h.say, ClientMsgType.ofByte_toByte]
  show handleSay s i frame.payload = _
  have hlen := Nat.le_of_lt_succ (length_readOneStringPayload _ h.read)
  rw [handleSay, if_neg (by simp [h.registered]), if_neg (hc.activeChannel_ne_nil h.channel), hread]
  simp only [broadcastChat, h.channel, cwWriteStrings_chat hc hv hlen]
  rfl

theorem handleFrame_of_acceptsDm (hv : NamesOk s) {target : Slot} {text : Bytes}
    (h : AcceptsDm s i frame target text) :
    handleFrame s i frame.type frame.payload =
      if Accepts s target (dmPayload (s.clients i) text) then safeEnqueueText
        (countDm (enqueueOrDisconnect s target .dmRecv (dmPayload (s.clients i) text))) i .ok
        sentText
      else enqueueOrDisconnect s target .dmRecv (dmPayload (s.clients i) text) := by
  obtain ⟨name, hread, hfind⟩ := h.found
  rw [handleFrame, h.dm, ClientMsgType.ofByte_toByte]
  show handleDm s i frame.payload = _
  unfold handleDm
  rw [if_neg (by simp [h.registered])]
  simp only [hread, hfind, enqueueStrings, cwWriteStrings_dm hv hread]
  split_ifs with hroom
  · rw [enqueuePayload_of_accepts hroom, enqueueOrDisconnect_of_accepts hroom]
    rfl
  · obtain ⟨heap, hq⟩ := enqueuePayload_of_not_accepts .dmRecv hroom
    rw [enqueueOrDisconnect, hq]

theorem handleFrame_of_nick (ht : frame.type = ClientMsgType.nick.toByte) {name : Bytes}
    (h : AcceptsName s i frame name) :
    handleFrame s i frame.type frame.payload = broadcastSystemToActiveChannel
      (safeEnqueueText (takeName s i name) i .ok (ascii "username changed")) i
      (nickNotice (s.clients i) name) := by
  obtain ⟨-, -, hs⟩ := readName_eq_some h.read
  rw [handleFrame, ht, ClientMsgType.ofByte_toByte]
  show handleNick s i frame.payload = _
  simp only [handleNick, h.read, h.free, hs]
  rfl

end Handlers

end Core
end ChannelWire
