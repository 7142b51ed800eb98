import ChannelWire.Gateway.Decoding
import ChannelWire.Core.Visitor

/-!
# Users and channels

`send_who` and `send_list` write names into a buffer of `CW_MAX_PAYLOAD_SIZE` bytes, one
`snprintf` for each name, and `gateway_event` splits the payload at its lines.

`appendLines_eq_joinLines` is the boundary of the buffer: the names joined by line feeds must take
less than its size.  Then the event lists the names as they are (`who_list_exact`); a table of
channels always fits.
-/

namespace ChannelWire
namespace Gateway

variable {s : Core.Server} {i : Core.Slot} {payload : Bytes} {names : List Bytes}

/-! ## The boundary of the buffer -/

/-- Names joined by line feeds. -/
def joinLines (names : List Bytes) : Bytes := [10].intercalate names

theorem joinLines_cons (name : Bytes) (names : List Bytes) :
    joinLines (name :: names) = name ++ lines names := by
  induction names generalizing name with
  | nil => exact List.intercalate_singleton.trans (List.append_nil name).symm
  | cons next names ih =>
    have htail := ih next
    show [10].intercalate (name :: next :: names) = name ++ (10 :: next ++ lines names)
    rw [joinLines] at htail
    rw [List.intercalate_cons_cons, htail]
    simp only [List.append_assoc, List.cons_append, List.nil_append]

/-- Once something is written, the rest is written if all of it fits. -/
theorem appendLines_eq {cap : ℕ} {used : Bytes} (hne : used ≠ []) (hused : used.length < cap)
    (names : List Bytes) : Core.appendLines cap used names =
      if (used ++ lines names).length < cap then some (used ++ lines names) else none := by
  induction names generalizing used with
  | nil =>
    have hnil : used ++ lines [] = used := List.append_nil used
    rw [Core.appendLines, hnil, if_pos hused]
  | cons name names ih =>
    have hlines : lines (name :: names) = (10 :: name) ++ lines names := rfl
    rw [Core.appendLines]
    simp only [List.length_eq_zero_iff, hne, if_false, List.singleton_append]
    rw [hlines, ← List.append_assoc]
    split_ifs with hfull hfits hfits
    · -- this name does not fit, and behind it the text only grows
      simp only [List.length_append] at hfits
      omega
    · rfl
    · rw [ih (List.append_ne_nil_of_left_ne_nil hne _) (by rw [List.length_append]; omega),
        if_pos hfits]
    · rw [ih (List.append_ne_nil_of_left_ne_nil hne _) (by rw [List.length_append]; omega),
        if_neg hfits]

/-- **The buffer holds the names if and only if, joined, they are shorter than it.** -/
theorem appendLines_eq_joinLines {cap : ℕ} {names : List Bytes} (hcap : 0 < cap)
    (hne : ∀ name ∈ names, name ≠ []) : Core.appendLines cap [] names =
      if (joinLines names).length < cap then some (joinLines names) else none := by
  cases names with
  | nil => exact (if_pos hcap).symm
  | cons name names =>
    have hname := hne name List.mem_cons_self
    rw [Core.appendLines, joinLines_cons]
    simp only [List.length_nil, if_true, List.nil_append, Nat.sub_zero]
    split_ifs with hfull hfits hfits
    · rw [List.length_append] at hfits
      omega
    · rfl
    · rw [appendLines_eq hname (by omega), if_pos hfits]
    · rw [appendLines_eq hname (by omega), if_neg hfits]

/-! ## The users of a channel -/

/-- The usernames of the members of a channel, in slot order. -/
def usernames (s : Core.Server) (idx : ℕ) : List Bytes :=
  (Core.members s idx).map fun j => (s.clients j).username

theorem validName_of_mem_usernames {idx : ℕ} (hv : Core.NamesOk s) :
    ∀ name ∈ usernames s idx, Core.ValidName name := by
  intro name hname
  obtain ⟨j, hj, rfl⟩ := List.mem_map.mp hname
  exact hv.valid j ((hv.registered_iff j).mp (Core.mem_members.mp hj).2.1)

theorem sorted_members (s : Core.Server) (idx : ℕ) :
    (Core.members s idx).Pairwise (· < ·) :=
  List.Pairwise.filter _ (List.pairwise_lt_finRange _)

/-- No two members have one name. -/
theorem nodup_usernames {idx : ℕ} (hv : Core.NamesOk s) : (usernames s idx).Nodup := by
  refine List.Nodup.map_on ?_ ((sorted_members s idx).imp Fin.ne_of_lt)
  intro j hj k hk hname
  obtain ⟨hlive, hregistered, -⟩ := Core.mem_members.mp hj
  obtain ⟨hlive', -, -⟩ := Core.mem_members.mp hk
  exact hv.unique j k hlive hlive' ((hv.registered_iff j).mp hregistered) hname

theorem gatewayEvent_who (hvalid : ∀ name ∈ names, Core.ValidName name)
    (h : Core.appendLines cwMaxPayloadSize [] names = some payload) :
    gatewayEvent ⟨ServerMsgType.whoResp.toByte, payload⟩ = .ok (.who (names.map asText)) := by
  simp only [gatewayEvent, ServerMsgType.ofByte_toByte, splitlines_appendLines hvalid h]

/-! ## The requests -/

theorem handleFrame_who (s : Core.Server) (i : Core.Slot) (payload : Bytes) :
    Core.handleFrame s i ClientMsgType.who.toByte payload = Core.sendWho s i := by
  rw [Core.handleFrame, ClientMsgType.ofByte_toByte]

theorem handleFrame_list (s : Core.Server) (i : Core.Slot) (payload : Bytes) :
    Core.handleFrame s i ClientMsgType.list.toByte payload = Core.sendList s i := by
  rw [Core.handleFrame, ClientMsgType.ofByte_toByte]

/-- A reply goes into the queue of its client, unless the queue overflows, and the gateway makes
an event of it. -/
def Replies (i : Core.Slot) (type : ServerMsgType) (event : GatewayEvent) (s t : Core.Server) : Prop :=
  ∃ reply, Core.Gets i type reply s t ∧ gatewayEvent ⟨type.toByte, reply⟩ = .ok event

/-- `send_who` for a channel of the table. -/
theorem sendWho_replies {idx : ℕ} (hv : Core.NamesOk s)
    (hfind : Core.findChannel s (s.clients i).activeChannel = some idx) :
    ((joinLines (usernames s idx)).length ≤ 4095 →
      Replies i .whoResp (.who ((usernames s idx).map asText)) s (Core.sendWho s i)) ∧
    (4095 < (joinLines (usernames s idx)).length →
      Core.Gets i .error (ascii "WHO response too large") s (Core.sendWho s i)) := by
  have hvalid : ∀ name ∈ usernames s idx, Core.ValidName name := validName_of_mem_usernames hv
  have hlines : Core.appendLines cwMaxPayloadSize [] (usernames s idx) =
      if (joinLines (usernames s idx)).length < cwMaxPayloadSize then
        some (joinLines (usernames s idx)) else none :=
    appendLines_eq_joinLines (by decide) fun name hname => (hvalid name hname).ne_nil
  rw [Core.sendWho, hfind]
  simp only
  rw [show (Core.members s idx).map (fun j => (s.clients j).username) = usernames s idx from rfl]
  constructor
  · intro hfits
    have hlt : (joinLines (usernames s idx)).length < cwMaxPayloadSize := Nat.lt_succ_of_le hfits
    rw [if_pos hlt] at hlines
    rw [hlines]
    exact ⟨_, Core.enqueueOrDisconnect_gets _ _, gatewayEvent_who hvalid hlines⟩
  · intro hfull
    have hge : ¬ (joinLines (usernames s idx)).length < cwMaxPayloadSize := Nat.not_lt.mpr hfull
    rw [if_neg hge] at hlines
    rw [hlines]
    exact Core.enqueueOrDisconnect_gets _ _

theorem sendList_replies (hc : Core.ChannelsOk s) :
    Replies i .listResp (.channels (s.channels.map asText)) s (Core.sendList s i) := by
  obtain ⟨reply, hlines⟩ := hc.exists_list
  rw [Core.sendList, hlines]
  refine ⟨reply, Core.enqueueOrDisconnect_gets _ _, ?_⟩
  simp only [gatewayEvent, ServerMsgType.ofByte_toByte, splitlines_appendLines hc.valid hlines]

/-- **`WHO` and `LIST` are exact.**  The users of the active channel are told in slot order, each
once and the client among them, if joined they fit into a payload, and else there is an `ERROR`;
the table of channels, which only grows at its end, is always told. -/
theorem who_list_exact (h : Core.Reachable s) (hl : (s.clients i).Live) (payload : Bytes) :
    ((s.clients i).activeChannel ≠ [] → ∃ idx,
      s.channels[idx]? = some (s.clients i).activeChannel ∧
      (∀ j, j ∈ Core.members s idx ↔ (s.clients j).Live ∧ (s.clients j).registered = true ∧
        (s.clients j).joined idx = true) ∧
      (Core.members s idx).Pairwise (· < ·) ∧ (usernames s idx).Nodup ∧
      i ∈ Core.members s idx ∧
      ((joinLines (usernames s idx)).length ≤ 4095 →
        Replies i .whoResp (.who ((usernames s idx).map asText)) s
          (Core.handleFrame s i ClientMsgType.who.toByte payload)) ∧
      (4095 < (joinLines (usernames s idx)).length →
        Core.Gets i .error (ascii "WHO response too large") s
          (Core.handleFrame s i ClientMsgType.who.toByte payload))) ∧
    Replies i .listResp (.channels (s.channels.map asText)) s
      (Core.handleFrame s i ClientMsgType.list.toByte payload) ∧
    Core.appendLines cwMaxPayloadSize [] s.channels ≠ none ∧
    ∀ t, Relation.ReflTransGen Core.Step s t → s.channels <+: t.channels := by
  have hc := Core.channelsOk h.moveReachable
  have hv := Core.namesOk h.moveReachable
  refine ⟨fun hactive => ?_, ?_, ?_, fun t ht => Core.channels_prefix_of_run ht⟩
  · obtain ⟨idx, hch, hjoined⟩ := (hc.clients i).active.resolve_left hactive
    have hregistered := (hc.clients i).registered idx hjoined
    have hwho := sendWho_replies (i := i) hv (Core.findChannel_of_getElem? hc.nodup hch)
    refine ⟨idx, hch, fun j => Core.mem_members, sorted_members s idx, nodup_usernames hv,
      Core.mem_members.mpr ⟨hl, hregistered, hjoined⟩, ?_⟩
    rw [handleFrame_who]
    exact hwho
  · rw [handleFrame_list]
    exact sendList_replies hc
  · obtain ⟨reply, hlines⟩ := hc.exists_list
    rw [hlines]
    exact Option.some_ne_none reply

theorem channels_roomWithText : Core.roomWithText.channels = [ascii "room"] := by decide +kernel

theorem activeChannel_roomWithText :
    (Core.roomWithText.clients 0).activeChannel = ascii "room" := by decide +kernel

theorem usernames_roomWithText : usernames Core.roomWithText 0 = [ascii "alice", ascii "bob"] := by
  decide +kernel

/-- `alice` asks who is in `room`, and which channels there are. -/
theorem who_list_exact_room :
    Replies 0 .whoResp (.who [asText (ascii "alice"), asText (ascii "bob")]) Core.roomWithText
        (Core.handleFrame Core.roomWithText 0 ClientMsgType.who.toByte []) ∧
      Replies 0 .listResp (.channels [asText (ascii "room")]) Core.roomWithText
        (Core.handleFrame Core.roomWithText 0 ClientMsgType.list.toByte []) := by
  obtain ⟨hwho, hlist, -, -⟩ := who_list_exact Core.reachable_roomWithText (i := 0)
    (by decide +kernel) []
  have hne : (Core.roomWithText.clients 0).activeChannel ≠ [] := by
    rw [activeChannel_roomWithText]
    decide
  obtain ⟨idx, hch, -, -, -, -, hreply, -⟩ := hwho hne
  rw [channels_roomWithText] at hch hlist
  obtain rfl : idx = 0 := Nat.lt_one_iff.mp (List.getElem?_eq_some_iff.mp hch).1
  rw [usernames_roomWithText] at hreply
  exact ⟨hreply (by decide), hlist⟩

end Gateway
end ChannelWire
