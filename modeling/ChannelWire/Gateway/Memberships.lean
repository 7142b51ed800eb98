import ChannelWire.Gateway.Rows

/-!
# The memberships that are stored

A membership is stored before the `JOIN` or `SWITCH` is written to the core, so the row does not
wait for the answer, and stays when the answer is an `ERROR`.  `Joined` is what a row should have
behind it, and `Backed` says that every row of a run has that.

The other place where a membership is stored is `save_channel_message`, when a text of the user
comes back.  It comes back to members only, so this row has a `JOIN` behind it
(`joined_of_text`).
-/

namespace ChannelWire
namespace Gateway

open Utf8 Transaction

/-- The core answered a `JOIN` of the channel on a connection of the user with `joined`. -/
def Joined (s : State) (username channelName : PyStr) : Prop :=
  ∃ k x name, s.sessions k = some x ∧ x.username.name = username ∧
    decode name = some channelName ∧ Core.JoinedOn k name s.core.trace

/-- **Every membership and every channel was there at the start or was joined.** -/
structure Backed (db₀ : Database) (s : State) : Prop where
  memberships : ∀ m ∈ s.db.memberships, m ∈ db₀.memberships ∨ Joined s m.username m.channelName
  channels : ∀ c ∈ s.db.channels, c ∈ db₀.channels ∨ ∃ username, Joined s username c

/-- A `join` or `switch` that a session reads names a channel that its user is stored as a member
of, or has joined. -/
def JoinsAgain (s : State) : Event → Prop
  | .command k loaded => ∀ x channel, s.sessions k = some x → joinedChannel loaded = some channel →
      ⟨x.username.name, channel⟩ ∈ s.db.memberships ∨ Joined s x.username.name channel
  | _ => True

variable {s t : State} {e : Event} {k : ℕ} {x : Session}

/-! ## Joined channels -/

theorem Joined.mono {username channelName : PyStr} (h : Joined s username channelName)
    (hst : Step s e t) : Joined t username channelName := by
  obtain ⟨k, x, name, hx, husername, hname, hjoined⟩ := h
  obtain ⟨y, hy, hsame⟩ := hst.keeps_session hx
  refine ⟨k, y, name, hy, hsame ▸ husername, hname, ?_⟩
  rcases hst.core_cases with ⟨-, hcore, -, -⟩ | heq
  · exact hjoined.mono hcore
  · rwa [heq]

/-- **A text comes back to a member.** -/
theorem joined_of_text {admits : State → Event → Prop} (hr : Reachable admits s)
    (hx : s.sessions k = some x) {frame : Frame} {channel sender text : PyStr}
    (hnext : s.nextFrame k x = some frame)
    (hevent : gatewayEvent frame = .ok (.chat channel sender text)) :
    Joined s x.username.name channel := by
  have hcore := Reachable.core hr
  obtain ⟨htype, hdecode⟩ := gatewayEvent_of hevent
  have hmem : frame ∈ Core.enqueuedTo k s.core.trace :=
    (State.nextFrame_prefix (Core.outputOk hcore.moveReachable) (sessionOk hr hx).reads hnext).subset
      List.mem_concat_self
  have hpayload : frame.payload ∈ ((Core.enqueuedTo k s.core.trace).filter fun f =>
      f.type = ServerMsgType.chat.toByte).map Frame.payload :=
    List.mem_map_of_mem (List.mem_filter.mpr ⟨hmem, decide_eq_true htype⟩)
  obtain ⟨p, hp, hentry⟩ := List.mem_map.mp ((Core.chats_isPrefix hcore k).subset hpayload)
  obtain ⟨hp, hk⟩ := List.mem_filter.mp hp
  have hjoined := (Core.joinsOk hcore).posts p hp k (of_decide_eq_true hk)
  have hsmall := (Core.outputOk hcore.moveReachable).small k frame hmem
  rw [← hentry] at hdecode hsmall
  have hfields := decodeStrings_fields_ok hsmall hdecode
  simp only [List.forall₂_cons] at hfields
  exact ⟨k, x, _, hx, rfl, hfields.1, hjoined⟩

/-! ## One event -/

/-- The rows of a membership that is there already, or that has a `JOIN` behind it. -/
theorem Backed.of_added {db₀ : Database} {new : Tables} (hs : Backed db₀ s) (hst : Step s e t)
    (htables : t.db.toTables = s.db.append new)
    (hmemberships : ∀ m ∈ new.memberships, Joined t m.username m.channelName)
    (hchannels : ∀ c ∈ new.channels, ∃ username, Joined t username c) : Backed db₀ t := by
  have hm : t.db.memberships = s.db.memberships ++ new.memberships :=
    congrArg Tables.memberships htables
  have hc : t.db.channels = s.db.channels ++ new.channels := congrArg Tables.channels htables
  constructor
  · rw [hm]
    intro m hmem
    rcases List.mem_append.mp hmem with hmem | hmem
    · exact (hs.memberships m hmem).imp_right (·.mono hst)
    · exact .inr (hmemberships m hmem)
  · rw [hc]
    intro c hmem
    rcases List.mem_append.mp hmem with hmem | hmem
    · exact (hs.channels c hmem).imp_right fun ⟨u, hu⟩ => ⟨u, hu.mono hst⟩
    · exact .inr (hchannels c hmem)

/-- A membership that is stored refers to a channel that is. -/
theorem channel_mem {db : Database} {username channelName : PyStr}
    (h : ⟨username, channelName⟩ ∈ db.memberships) : channelName ∈ db.channels :=
  (db.consistent.members _ h).2

theorem missing_of_mem {α : Type*} [DecidableEq α] {l : List α} {a : α} (h : a ∈ l) :
    missing l a = [] := if_pos h

theorem Backed.step {admits : State → Event → Prop} {db₀ : Database} (hr : Reachable admits s)
    (hs : Backed db₀ s) (hjoins : JoinsAgain s e) (h : Step s e t) : Backed db₀ t := by
  obtain ⟨new, hgrows⟩ := h.grows
  have hadd : ∀ {username channel : PyStr} {users : List User} {messages : List Message},
      ⟨username, channel⟩ ∈ s.db.memberships ∨ Joined t username channel →
      t.db.toTables = s.db.append ⟨users, missing s.db.channels channel,
        missing s.db.memberships ⟨username, channel⟩, messages⟩ → Backed db₀ t := by
    intro username channel users messages hor htables
    refine hs.of_added h htables (fun m hm => ?_) fun c hc => ?_
    · obtain ⟨rfl, hnot⟩ := mem_missing hm
      exact hor.resolve_left hnot
    · obtain ⟨rfl, hnot⟩ := mem_missing hc
      exact ⟨username, hor.resolve_left fun hmem => hnot (channel_mem hmem)⟩
  have htables := hgrows.tables
  have hstores := hgrows.stores
  generalize storedIn s t e = rows at hstores
  cases hstores with
  | users _ => exact hs.of_added h htables (fun _ hm => by cases hm) fun _ hc => by cases hc
  | @joins k x loaded channel hx hchannel =>
    rw [addMembership_added] at htables
    exact hadd ((hjoins x channel hx hchannel).imp_right (·.mono h)) htables
  | text hx _ _ hnext hevent =>
    rw [saveChannelMessage_added] at htables
    exact hadd (.inr ((joined_of_text hr hx hnext hevent).mono h)) htables
  | received _ _ _ _ _ _ | acknowledged _ _ _ _ _ _ =>
    rw [saveDm_added] at htables
    exact hs.of_added h htables (fun _ hm => by cases hm) fun _ hc => by cases hc

/-- The rows stay. -/
theorem Run.memberships_subset {db₀ : Database} {admits : State → Event → Prop}
    {w : List (ℕ × Stored)} (h : Run db₀ admits s w) : db₀.memberships ⊆ s.db.memberships := by
  induction h with
  | init _ hdb => exact hdb ▸ List.Subset.refl _
  | @step s t e w _ _ hst ih =>
    obtain ⟨new, hgrows⟩ := hst.grows
    have hm : t.db.memberships = s.db.memberships ++ new.memberships :=
      congrArg Tables.memberships hgrows.tables
    rw [hm]
    exact List.subset_append_of_subset_left _ ih

theorem Run.backed {db₀ : Database} {w : List (ℕ × Stored)} (h : Run db₀ JoinsAgain s w) :
    Backed db₀ s := by
  induction h with
  | init _ hdb => exact hdb ▸ ⟨fun _ => .inl, fun _ => .inl⟩
  | step hrun hjoins hst ih => exact ih.step hrun.reachable hjoins hst

/-- What a `join` or `switch` leaves in the tables. -/
theorem command_tables {loaded : Except ValueError Json} {channel : PyStr}
    (hchannel : joinedChannel loaded = some channel) :
    (s.command k x loaded).db.toTables =
      s.db.append ((sessionScope s.db).addMembership x.username.name channel).added := by
  rcases x.pumpWsToCore_db s.db loaded with ⟨hnone, -⟩ | ⟨channel', hchannel', htables⟩
  · rw [hchannel] at hnone
    cases hnone
  · rw [Option.some.inj (hchannel.symm.trans hchannel')]
    exact htables

/-- Nothing is stored for a membership that is there. -/
theorem command_same {loaded : Except ValueError Json} {channel : PyStr}
    (hchannel : joinedChannel loaded = some channel) :
    (s.command k x loaded).db.toTables = s.db.toTables ↔
      ⟨x.username.name, channel⟩ ∈ s.db.memberships := by
  rw [command_tables hchannel, addMembership_added]
  constructor
  · intro h
    have hm : s.db.memberships ++ missing s.db.memberships ⟨x.username.name, channel⟩ =
        s.db.memberships := congrArg Tables.memberships h
    rw [← hm]
    exact mem_append_missing ..
  · intro h
    obtain ⟨huser, hchannel⟩ := s.db.consistent.members _ h
    rw [missing_of_mem h, missing_of_mem hchannel, newUser, missing_of_mem huser]
    exact Tables.append_empty _

/-- The core has no part in a command. -/
theorem joined_of_command {loaded : Except ValueError Json} {username channelName : PyStr}
    (hx : s.sessions k = some x) (h : Joined (s.command k x loaded) username channelName) :
    Joined s username channelName := by
  obtain ⟨j, y, name, hy, husername, hname, hjoined⟩ := h
  have hsessions : (s.command k x loaded).sessions =
      Function.update s.sessions k (some (x.pumpWsToCore s.db loaded).1) := rfl
  rw [hsessions] at hy
  rcases eq_or_ne j k with rfl | hne
  · rw [Function.update_self] at hy
    obtain rfl := Option.some.inj hy
    refine ⟨j, x, name, hx, ?_, hname, hjoined⟩
    rw [← husername, (Session.pumpWsToCore_writes ..).username]
  · rw [Function.update_of_ne hne] at hy
    exact ⟨j, y, name, hy, husername, hname, hjoined⟩

/-! ## Real memberships -/

/-- **Which memberships are real.**  In every run in which every `join` and `switch` that a session
reads names a channel that its user is stored as a member of or has joined, every membership and
every channel was there at the start or has a `JOIN` behind it that the core answered with `joined`.
In any run, a `join` or `switch` that the gateway accepts leaves the tables as they were exactly if
the membership is stored already; and if all rows were backed before it, they are after it exactly
if the membership was stored already or the user has joined the channel. -/
theorem memberships_backed_iff (db₀ : Database) :
    (∀ s w, Run db₀ JoinsAgain s w → Backed db₀ s) ∧
    ∀ admits s w k x loaded channel, Run db₀ admits s w → s.sessions k = some x →
      x.phase ≠ .registering → x.writing = true → joinedChannel loaded = some channel →
      ((s.command k x loaded).db.toTables = s.db.toTables ↔
        ⟨x.username.name, channel⟩ ∈ s.db.memberships) ∧
      (Backed db₀ s → (Backed db₀ (s.command k x loaded) ↔ JoinsAgain s (.command k loaded))) := by
  refine ⟨fun s w h => h.backed, fun admits s w k x loaded channel h hx hphase hwriting hchannel =>
    ⟨command_same hchannel, fun hs => ⟨fun ht => ?_, fun hjoins => ?_⟩⟩⟩
  · intro x' channel' hx' hchannel'
    obtain rfl := Option.some.inj (hx.symm.trans hx')
    obtain rfl := Option.some.inj (hchannel.symm.trans hchannel')
    have htables := command_tables (s := s) (k := k) (x := x) hchannel
    rw [addMembership_added] at htables
    have hm : (s.command k x loaded).db.memberships =
        s.db.memberships ++ missing s.db.memberships ⟨x.username.name, channel⟩ :=
      congrArg Tables.memberships htables
    have hmem : ⟨x.username.name, channel⟩ ∈ (s.command k x loaded).db.memberships := by
      rw [hm]
      exact mem_append_missing ..
    rcases ht.memberships _ hmem with hold | hjoined
    · exact .inl (h.memberships_subset hold)
    · exact .inr (joined_of_command hx hjoined)
  · exact hs.step h.reachable hjoins (.command hx hphase hwriting)

/-- The core has just started, and `alice` is stored as a member of `room`. -/
def roomStart : State :=
  { start with db := ⟨⟨[⟨alice.name, none⟩], [py "room"], [⟨alice.name, py "room"⟩], []⟩, by decide⟩ }

/-- `alice` joins `room` again. -/
def joinRoom : List Op := aliceOnline ++ [.command 1 (.ok (.object (joinMessage "room"))),
  .deliver 0 (joinFrame "room"), .flush 0, .read 1]

/-- A condition on operations under which their events are those of `JoinsAgain`. -/
def JoinsAgainOp (s : State) : Op → Prop
  | .command k loaded => ∀ x ∈ s.sessions k, ∀ channel ∈ joinedChannel loaded,
      ⟨x.username.name, channel⟩ ∈ s.db.memberships
  | _ => True

instance (s : State) : (op : Op) → Decidable (JoinsAgainOp s op)
  | .command k loaded =>
    inferInstanceAs (Decidable (∀ x ∈ s.sessions k, ∀ channel ∈ joinedChannel loaded, _))
  | .connect _ _ | .deliver _ _ | .flush _ | .read _ | .finish _ _ | .halt _ =>
    inferInstanceAs (Decidable True)

theorem admitted_of_joinsAgainOp (s : State) (op : Op) (h : JoinsAgainOp s op) :
    Admitted JoinsAgain s op := by
  cases op with
  | command k loaded => exact fun x channel hx hchannel => .inl (h x hx channel hchannel)
  | connect _ _ | deliver _ _ => exact ⟨trivial, trivial⟩
  | flush _ | read _ | finish _ _ | halt _ => trivial

theorem initial_roomStart : Initial roomStart := ⟨⟨4096, _, by decide, rfl⟩, rfl, rfl⟩

theorem memberships_backed_iff_room : Backed roomStart.db (roomStart.run joinRoom) ∧
    ∃ x, (roomStart.run joinRoom).sessions 1 = some x ∧
      ((roomStart.run joinRoom).command 1 x (.ok (.object (joinMessage "room")))).db.toTables =
        (roomStart.run joinRoom).db.toTables ∧
      ((roomStart.run joinRoom).command 1 x (.ok (.object (joinMessage "hall")))).db.toTables ≠
        (roomStart.run joinRoom).db.toTables := by
  obtain ⟨⟨w, hrun⟩, -⟩ := run_of_schedule [1] joinRoom initial_roomStart
    (by decide +kernel) (.mono admitted_of_joinsAgainOp (by decide +kernel))
  obtain ⟨x, hx, hphase, hwriting, hroom, hhall⟩ : ∃ x ∈ (roomStart.run joinRoom).sessions 1,
      x.phase ≠ .registering ∧ x.writing = true ∧
      ⟨x.username.name, py "room"⟩ ∈ (roomStart.run joinRoom).db.memberships ∧
      ⟨x.username.name, py "hall"⟩ ∉ (roomStart.run joinRoom).db.memberships := by decide +kernel
  obtain ⟨hbacked, hcommand⟩ := memberships_backed_iff roomStart.db
  refine ⟨hbacked _ w hrun, x, hx, ?_, fun h => hhall ?_⟩
  · exact (hcommand _ _ w 1 x (.ok (.object (joinMessage "room"))) (py "room") hrun hx hphase
      hwriting (by decide +kernel)).1.mpr hroom
  · exact (hcommand _ _ w 1 x (.ok (.object (joinMessage "hall"))) (py "hall") hrun hx hphase
      hwriting (by decide +kernel)).1.mp h

/-- `alice` asks to join a channel whose name the core does not accept. -/
def joinBadName : List Op := aliceOnline ++ [.command 1 (.ok (.object (joinMessage "bad name"))),
  .deliver 0 (joinFrame "bad name"), .flush 0, .read 1]

/-- The membership is stored although the core refuses the `JOIN`. -/
theorem refused_join_is_stored : ∃ s w x, Run start.db (fun _ _ => True) s w ∧
    s.sessions 1 = some x ∧ x.reads.getLast? =
      some ⟨ServerMsgType.error.toByte, ascii "invalid channel"⟩ ∧
    ⟨x.username.name, py "bad name"⟩ ∈ s.db.memberships ∧ ¬ Backed start.db s := by
  obtain ⟨⟨w, hrun⟩, hwithin⟩ := run_of_legal [1] joinBadName initial_start (by decide +kernel)
  obtain ⟨x, hx, hlast, hmem, hanswers⟩ : ∃ x ∈ (start.run joinBadName).sessions 1,
      x.reads.getLast? = some ⟨ServerMsgType.error.toByte, ascii "invalid channel"⟩ ∧
      ⟨x.username.name, py "bad name"⟩ ∈ (start.run joinBadName).db.memberships ∧
      ∀ a ∈ Core.answers 1 (start.run joinBadName).core.trace,
        a.request.any (fun f => f.type == ClientMsgType.join.toByte) = true →
        a.reply.type ≠ ServerMsgType.ok.toByte := by decide +kernel
  refine ⟨_, w, x, hrun, hx, hlast, hmem, fun hbacked => ?_⟩
  rcases hbacked.memberships _ hmem with hold | ⟨k, y, name, hy, -, -, f, htype, -, hanswer⟩
  · cases hold
  · have hk : k = 1 := by
      by_contra hne
      rw [hwithin k (by simpa using hne)] at hy
      cases hy
    subst hk
    exact hanswers _ hanswer (by simp [htype]) rfl

end Gateway
end ChannelWire
