import ChannelWire.Core.Actions
import ChannelWire.Core.Runs

/-!
# The channel table and the memberships

The bitmap `joined`, the name `active_channel` and the table `channels` are updated
separately, by four commands and by every disconnect.  `ChannelsOk` is the invariant that
holds them together; the entries of the table stay where they are (`Move.channels_prefix`), so
a bit of the bitmap means the same channel for good.
-/

namespace ChannelWire
namespace Core

open LinkedQueue

/-! ## One client -/

/-- The memberships of a client refer to the table, belong to a registered client and include
the active channel. -/
structure MembershipOk (channels : List Bytes) (c : Client) : Prop where
  joined_lt : ∀ idx, c.joined idx = true → idx < channels.length
  registered : ∀ idx, c.joined idx = true → c.registered = true
  active : c.activeChannel = [] ∨
    ∃ idx, channels[idx]? = some c.activeChannel ∧ c.joined idx = true

namespace MembershipOk

variable {channels : List Bytes} {c d : Client} {idx : ℕ} {name : Bytes}

theorem of_blank (hj : d.joined = fun _ => false) (ha : d.activeChannel = []) :
    MembershipOk channels d := by
  refine ⟨fun idx h => ?_, fun idx h => ?_, .inl ha⟩ <;> simp [hj] at h

/-- Registering, or a change of anything else. -/
theorem congr (h : MembershipOk channels c) (hj : d.joined = c.joined)
    (ha : d.activeChannel = c.activeChannel) (hr : c.registered = true → d.registered = true) :
    MembershipOk channels d := by
  refine ⟨by rw [hj]; exact h.joined_lt, fun idx hidx => ?_, by rw [hj, ha]; exact h.active⟩
  exact hr (h.registered idx (by rwa [← hj]))

/-- The table grows at its end. -/
theorem append (h : MembershipOk channels c) (new : Bytes) :
    MembershipOk (channels ++ [new]) c := by
  refine ⟨fun idx hidx => ?_, h.registered, ?_⟩
  · have hlt := h.joined_lt idx hidx
    rw [List.length_append]
    omega
  · refine h.active.imp_right ?_
    rintro ⟨idx, hch, hidx⟩
    exact ⟨idx, by rw [List.getElem?_append_left (h.joined_lt idx hidx), hch], hidx⟩

theorem join (h : MembershipOk channels c) (hr : c.registered = true)
    (hch : channels[idx]? = some name) :
    MembershipOk channels
      { c with joined := Function.update c.joined idx true, activeChannel := name } := by
  refine ⟨fun j hj => ?_, fun _ _ => hr, .inr ⟨idx, hch, Function.update_self ..⟩⟩
  rcases eq_or_ne j idx with rfl | hne
  · exact (List.getElem?_eq_some_iff.mp hch).1
  · simp only [Function.update_of_ne hne] at hj
    exact h.joined_lt j hj

theorem switch (h : MembershipOk channels c) (hch : channels[idx]? = some name)
    (hj : c.joined idx = true) : MembershipOk channels { c with activeChannel := name } :=
  ⟨h.joined_lt, h.registered, .inr ⟨idx, hch, hj⟩⟩

/-- Leaving a channel that is not the active one does not touch the active one's bit: the two
have different names, hence different places in the table. -/
theorem leave (h : MembershipOk channels c) (hch : channels[idx]? = some name) :
    MembershipOk channels { c with
      joined := Function.update c.joined idx false
      activeChannel := if c.activeChannel = name then [] else c.activeChannel } := by
  have hold : ∀ j, Function.update c.joined idx false j = true → c.joined j = true := by
    intro j hj
    rcases eq_or_ne j idx with rfl | hne
    · rw [Function.update_self] at hj
      cases hj
    · rwa [Function.update_of_ne hne] at hj
  refine ⟨fun j hj => h.joined_lt j (hold j hj), fun j hj => h.registered j (hold j hj), ?_⟩
  simp only
  split_ifs with hact
  · exact .inl rfl
  · refine h.active.imp_right ?_
    rintro ⟨j, hj, hjoined⟩
    have hne : j ≠ idx := by
      rintro rfl
      exact hact (Option.some.inj (hj.symm.trans hch))
    exact ⟨j, hj, by rwa [Function.update_of_ne hne]⟩

end MembershipOk

/-! ## The server -/

/-- **The channel invariant.** -/
structure ChannelsOk (s : Server) : Prop where
  nodup : s.channels.Nodup
  valid : ∀ ch ∈ s.channels, ValidName ch
  length_le : s.channels.length ≤ cwMaxChannels
  clients : ∀ i, MembershipOk s.channels (s.clients i)

/-- In a table without duplicates the lookup finds the place of a name. -/
theorem findChannel_of_getElem? {s : Server} {idx : ℕ} {name : Bytes} (hs : s.channels.Nodup)
    (h : s.channels[idx]? = some name) : findChannel s name = some idx := by
  cases hf : findChannel s name with
  | none => exact absurd (List.mem_of_getElem? h) (findChannel_eq_none_iff.mp hf)
  | some j =>
    obtain ⟨hlt, hidx⟩ := List.getElem?_eq_some_iff.mp h
    obtain ⟨hlt', hj⟩ := List.getElem?_eq_some_iff.mp (findChannel_eq_some hf)
    rw [(hs.getElem_inj_iff).mp (hj.trans hidx.symm)]

namespace ChannelsOk

variable {s : Server}

/-- One client changes and the table stays. -/
theorem setClient {i : Slot} {c : Client} {t : Server}
    (hs : ChannelsOk s) (hclients : t.clients = Function.update s.clients i c)
    (hchannels : t.channels = s.channels) (hc : MembershipOk s.channels c) : ChannelsOk t := by
  refine ⟨by rw [hchannels]; exact hs.nodup, by rw [hchannels]; exact hs.valid,
    by rw [hchannels]; exact hs.length_le, ?_⟩
  rw [hclients, hchannels]
  exact forall_update hs.clients hc

/-- The invariant says nothing about the trace. -/
theorem emit (hs : ChannelsOk s) (e : Effect) : ChannelsOk (s.emit e) :=
  ⟨hs.nodup, hs.valid, hs.length_le, hs.clients⟩

/-- The active channel of a client is in the table, and the client has joined it. -/
theorem findChannel_active (hs : ChannelsOk s) {i : Slot} (h : (s.clients i).activeChannel ≠ []) :
    ∃ idx, findChannel s (s.clients i).activeChannel = some idx ∧
      (s.clients i).joined idx = true := by
  rcases (hs.clients i).active with hact | ⟨idx, hch, hj⟩
  · exact absurd hact h
  · exact ⟨idx, findChannel_of_getElem? hs.nodup hch, hj⟩

end ChannelsOk

theorem Action.channelsOk {r : Request} {s t : Server} (h : Action r s t)
    (hs : ChannelsOk s) : ChannelsOk t := by
  cases h with
  | push _ _ _ _ => exact hs.setClient rfl rfl ((hs.clients _).congr rfl rfl id)
  | drop _ _ =>
    exact hs.setClient (overflowDisconnect_clients ..) (overflowDisconnect_channels ..)
      (.of_blank rfl rfl)
  | rename _ _ _ _ => exact hs.setClient rfl rfl ((hs.clients _).congr rfl rfl fun _ => rfl)
  | openChannel hv hf hlt =>
    have hnew := findChannel_eq_none_iff.mp hf
    refine ⟨?_, ?_, ?_, fun i => (hs.clients i).append _⟩
    · rw [Server.setChannels_channels, List.nodup_append]
      refine ⟨hs.nodup, List.nodup_singleton _, ?_⟩
      rintro ch hch _ hname rfl
      exact hnew (List.mem_singleton.mp hname ▸ hch)
    · intro ch hch
      rcases List.mem_append.mp hch with hch | hch
      · exact hs.valid ch hch
      · rw [List.mem_singleton.mp hch]
        exact hv
    · rw [Server.setChannels_channels, List.length_append, List.length_singleton]
      exact hlt
  | join _ hr hch _ => exact hs.setClient rfl rfl ((hs.clients _).join hr hch)
  | switch _ hch hj _ => exact hs.setClient rfl rfl ((hs.clients _).switch hch hj)
  | leave _ hch => exact hs.setClient rfl rfl ((hs.clients _).leave hch)
  | count _ _ => exact ⟨hs.nodup, hs.valid, hs.length_le, hs.clients⟩
  | quit _ _ =>
    exact hs.setClient (disconnectClient_clients ..) (disconnectClient_channels ..)
      (.of_blank rfl rfl)
  | announce _ _ _ _ _ _ => exact ⟨hs.nodup, hs.valid, hs.length_le, hs.clients⟩

theorem Move.channelsOk {s t : Server} (h : Move s t) (hs : ChannelsOk s) : ChannelsOk t := by
  cases h with
  | act ha => exact ha.channelsOk hs
  | accept _ _ => exact hs.setClient rfl rfl (.of_blank rfl rfl)
  | receive _ _ _ => exact hs.setClient rfl rfl ((hs.clients _).congr rfl rfl id)
  | handle _ => exact ⟨hs.nodup, hs.valid, hs.length_le, hs.clients⟩
  | malformed _ => exact ⟨hs.nodup, hs.valid, hs.length_le, hs.clients⟩
  | shift _ => exact hs.setClient rfl rfl ((hs.clients _).congr rfl rfl id)
  | send _ hout _ _ =>
    obtain ⟨out, queuedBytes, hclients, -⟩ := takeSent_clients hout
    exact hs.setClient hclients (takeSent_channels ..) ((hs.clients _).congr rfl rfl id)
  | disconnect _ =>
    exact hs.setClient (disconnectClient_clients ..) (disconnectClient_channels ..)
      (.of_blank rfl rfl)

theorem channelsOk {s : Server} (h : MoveReachable s) : ChannelsOk s := by
  refine MoveReachable.invariant ?_ (fun _ _ _ hs hm => hm.channelsOk hs) h
  intro maxQueueBytes heap _
  exact ⟨List.nodup_nil, fun _ h => absurd h List.not_mem_nil, Nat.zero_le _,
    fun _ => .of_blank rfl rfl⟩

/-! ## The table only grows -/

theorem Action.channels_prefix {r : Request} {s t : Server} (h : Action r s t) :
    s.channels <+: t.channels := by
  cases h with
  | openChannel _ _ _ => exact List.prefix_append ..
  | drop _ _ => exact ⟨[], by simp [overflowDisconnect_channels]⟩
  | quit _ _ => exact ⟨[], by rw [List.append_nil, disconnectClient_channels]⟩
  | push _ _ _ _ => exact List.prefix_rfl
  | rename _ _ _ _ => exact List.prefix_rfl
  | join _ _ _ _ => exact List.prefix_rfl
  | switch _ _ _ _ => exact List.prefix_rfl
  | leave _ _ => exact List.prefix_rfl
  | count _ _ => exact List.prefix_rfl
  | announce _ _ _ _ _ _ => exact List.prefix_rfl

theorem Move.channels_prefix {s t : Server} (h : Move s t) : s.channels <+: t.channels := by
  cases h with
  | act ha => exact ha.channels_prefix
  | accept _ _ => exact List.prefix_rfl
  | receive _ _ _ => exact List.prefix_rfl
  | handle _ => exact List.prefix_rfl
  | malformed _ => exact List.prefix_rfl
  | shift _ => exact List.prefix_rfl
  | send _ _ _ _ => exact ⟨[], by rw [List.append_nil, takeSent_channels]⟩
  | disconnect _ => exact ⟨[], by rw [List.append_nil, disconnectClient_channels]⟩

/-- The entries of the table never change in the course of a run. -/
theorem channels_prefix_of_run {s t : Server} (h : Relation.ReflTransGen Step s t) :
    s.channels <+: t.channels := by
  refine Transition.preserved_of_run (P := fun u => s.channels <+: u.channels) ?_ h List.prefix_rfl
  intro u v huv hu
  exact Transition.preserved_of_run (P := fun w => s.channels <+: w.channels)
    (fun _ _ hm hw => hw.trans hm.channels_prefix) huv.moves hu

/-- The call of `broadcast_chat` in `handle_frame`. -/
theorem handleFrame_say {s : Server} {i : Slot} {payload text : Bytes}
    (hr : (s.clients i).registered = true) (hact : (s.clients i).activeChannel ≠ [])
    (hread : readOneStringPayload payload (cwTextCap + 1) = some text) (htext : text ≠ []) :
    handleFrame s i ClientMsgType.say.toByte payload = broadcastChat s i text := by
  have hfilter : (some text).filter (fun t => decide (t ≠ [])) = some text := by
    rw [Option.filter_some, if_pos (by simpa using htext)]
  unfold handleFrame
  rw [ClientMsgType.ofByte_toByte]
  simp only [handleSay]
  rw [if_neg (by simp [hr]), if_neg hact, hread, hfilter]

/-- **Channel-state invariant.**  In every reachable state the table holds at most 64 distinct
valid names; a live client has joined only channels of the table, and only when it is
registered; its active channel is none or one it has joined.  The entries of the table stay in
every continuation of the run.  So wherever `handle_frame` calls `broadcast_chat`, the lookup of
the active channel succeeds. -/
theorem channel_state_invariant {s : Server} (h : Reachable s) :
    (s.channels.Nodup ∧ s.channels.length ≤ 64 ∧ (∀ ch ∈ s.channels, 1 ≤ ch.length ∧
      ch.length ≤ 32 ∧ ∀ c ∈ ch, isNameByte c = true)) ∧
    (∀ t, Relation.ReflTransGen Step s t → s.channels <+: t.channels) ∧
    (∀ i, (s.clients i).Live →
      (∀ idx, (s.clients i).joined idx = true →
        idx < s.channels.length ∧ (s.clients i).registered = true) ∧
      ((s.clients i).activeChannel = [] ∨ ∃ idx, s.channels[idx]? = some (s.clients i).activeChannel ∧
        (s.clients i).joined idx = true)) ∧
    ∀ i payload text, (s.clients i).registered = true → (s.clients i).activeChannel ≠ [] →
      readOneStringPayload payload (cwTextCap + 1) = some text → text ≠ [] →
      handleFrame s i ClientMsgType.say.toByte payload = broadcastChat s i text ∧
        findChannel s (s.clients i).activeChannel ≠ none := by
  have hs := channelsOk h.moveReachable
  refine ⟨⟨hs.nodup, hs.length_le, fun ch hch => cwValidName_eq_true.mp (hs.valid ch hch)⟩,
    fun t ht => channels_prefix_of_run ht, fun i _ => ⟨fun idx hidx => ?_, (hs.clients i).active⟩, ?_⟩
  · exact ⟨(hs.clients i).joined_lt idx hidx, (hs.clients i).registered idx hidx⟩
  · intro i payload text hr hact hread htext
    obtain ⟨idx, hfind, -⟩ := hs.findChannel_active hact
    refine ⟨handleFrame_say hr hact hread htext, ?_⟩
    rw [hfind]
    exact Option.some_ne_none idx

theorem channel_state_invariant_room :
    roomWithText.channels.Nodup ∧ roomWithText.channels.length ≤ 64 :=
  have h := channel_state_invariant reachable_roomWithText
  ⟨h.1.1, h.1.2.1⟩

end Core
end ChannelWire
