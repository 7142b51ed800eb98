import ChannelWire.Core.Outputs
import ChannelWire.Core.Service
import ChannelWire.Gateway.Runs

/-!
# What the browsers are shown

A session sends to its browser what it reads from the core, event by event (`Session.Relayed`), and
what the core enqueues to the connections is of one log (`Core.messages_of_one_log`).  Put together:
all browsers are shown the texts of one log.
-/

namespace ChannelWire
namespace Gateway

/-- The event makes a line in a conversation: somebody's text, or a notice. -/
def GatewayEvent.isText : GatewayEvent → Bool
  | .chat _ _ _ | .dm _ _ | .system _ => true
  | _ => false

theorem isText_eq {frame : Frame} {event : GatewayEvent} (h : gatewayEvent frame = .ok event) :
    event.isText = Core.isMessage frame := by
  have hof := gatewayEvent_of h
  obtain ⟨type, payload⟩ := frame
  cases event with
  | chat _ _ _ =>
    obtain rfl : type = _ := hof.1
    rfl
  | dm _ _ =>
    obtain rfl : type = _ := hof.1
    rfl
  | ok _ =>
    obtain rfl : type = _ := hof.1
    rfl
  | system _ | who _ | channels _ | error _ | coreStats _ | coreStatsRaw _ =>
    obtain rfl : type = _ := hof
    rfl
  | raw _ _ =>
    refine (Bool.eq_false_iff.mpr fun hmessage => ?_).symm
    have hnone : ∀ t : ServerMsgType, type ≠ t.toByte := by
      rintro t rfl
      have htype : ServerMsgType.ofByte t.toByte = none := hof
      rw [ServerMsgType.ofByte_eq_some.mpr rfl] at htype
      cases htype
    simp only [Core.isMessage, Bool.or_eq_true, beq_iff_eq] at hmessage
    rcases hmessage with (htype | htype) | htype <;> exact hnone _ htype

namespace Session

/-- The events of the core that the browser was sent. -/
def events (x : Session) : List GatewayEvent :=
  x.shown.filterMap fun
    | .event event => some event
    | .ready _ | .refused _ => none

theorem events_sendJson_event (x : Session) (event : GatewayEvent) :
    (x.sendJson (.event event)).events = x.events ++ [event] := List.filterMap_append

theorem events_sendJson_refused (x : Session) (e : ValueError) :
    (x.sendJson (.refused e)).events = x.events :=
  List.filterMap_append.trans (List.append_nil _)

/-- A round shows the event of its frame, or it is the last one. -/
def Shows (x y : Session) (frame : Frame) : Prop :=
  (∃ event, gatewayEvent frame = .ok event ∧ y.events = x.events ++ [event] ∧
      y.reading = x.reading) ∨
    y.events = x.events ∧ y.reading = false

theorem Shows.save {x z : Session} {frame : Frame} {event : GatewayEvent}
    (hevent : gatewayEvent frame = .ok event) (hevents : z.events = x.events)
    (hreading : z.reading = x.reading) (index : ℕ) (tx : Transaction) (own : Bool) :
    Shows x (z.save index tx own event).1 frame := by
  unfold Session.save
  cases tx.commit with
  | none => exact .inr ⟨hevents, rfl⟩
  | some db =>
    refine .inl ⟨event, hevent, ?_, hreading⟩
    exact (events_sendJson_event _ event).trans (congrArg (· ++ [event]) hevents)

theorem pumpCoreToWs_shows (active : PyStr → ℕ) (db : Database) (x : Session) (frame : Frame) :
    Shows x (x.pumpCoreToWs active db frame).1 frame := by
  have hshow : ∀ {event : GatewayEvent} {z : Session}, gatewayEvent frame = .ok event →
      z.events = x.events → z.reading = x.reading → Shows x (z.sendJson (.event event)) frame :=
    fun {event z} hevent hevents hreading => .inl ⟨event, hevent,
      (events_sendJson_event z event).trans (congrArg (· ++ [event]) hevents), hreading⟩
  unfold pumpCoreToWs
  simp only
  split
  · exact .inr ⟨rfl, rfl⟩
  · next event hevent =>
    split
    · split_ifs
      · exact Shows.save hevent rfl rfl ..
      · exact hshow hevent rfl rfl
    · split_ifs
      · exact Shows.save hevent rfl rfl ..
      · exact hshow hevent rfl rfl
    · split_ifs
      · split
        · exact hshow hevent rfl rfl
        · exact Shows.save hevent rfl rfl ..
      · exact hshow hevent rfl rfl
    · exact hshow hevent rfl rfl
    · exact hshow hevent rfl rfl

theorem coreSend_events (x : Session) (msgType : ClientMsgType) (payload : Bytes)
    (dm : Option (PyStr × PyStr)) : (x.coreSend msgType payload dm).events = x.events := by
  unfold coreSend
  split <;> rfl

theorem pumpWsToCore_events (db : Database) (x : Session) (loaded : Except ValueError Json) :
    (x.pumpWsToCore db loaded).1.events = x.events := by
  unfold pumpWsToCore
  split
  · exact events_sendJson_refused ..
  · split
    · exact events_sendJson_refused ..
    · next msgType payload hmessage =>
      cases msgType with
      | join | switch =>
        simp only
        split
        · rfl
        · exact coreSend_events ..
      | dm =>
        exact coreSend_events { x with pendingDms := _ } ..
      | hello | leave | say | who | list | nick | quit | stats => exact coreSend_events x ..
  · rfl

/-- The browser was sent the events of the frames that were read after the answer to `HELLO`.  The
round of the frame `last` ended the task. -/
structure Relayed (x : Session) (answer : Frame) (fs : List Frame) (last : Option Frame) :
    Prop where
  accepted : answer.type = ServerMsgType.ok.toByte
  reads : x.reads = answer :: (fs ++ last.toList)
  events : List.Forall₂ (fun frame event => gatewayEvent frame = .ok event) fs x.events
  reading : x.reading = true → last = none

/-- A session whose `HELLO` was not accepted shows nothing. -/
def Relays (x : Session) : Prop :=
  (x.events = [] ∧ x.reading = false) ∨ ∃ answer fs last, x.Relayed answer fs last

theorem Relays.of_eq {x y : Session} (h : x.Relays) (hevents : y.events = x.events)
    (hreads : y.reads = x.reads) (hreading : y.reading = true → x.reading = true) :
    y.Relays := by
  rcases h with ⟨hnil, hoff⟩ | ⟨answer, fs, last, hx⟩
  · refine .inl ⟨hevents.trans hnil, Bool.eq_false_iff.mpr fun hon => ?_⟩
    rw [hreading hon] at hoff
    cases hoff
  · exact .inr ⟨answer, fs, last, hx.accepted, hreads.trans hx.reads, hevents ▸ hx.events,
      fun hon => hx.reading (hreading hon)⟩

/-- One more round. -/
theorem Relays.read {x y : Session} {frame : Frame} (h : x.Relays) (hreading : x.reading = true)
    (hreads : Reads x y frame) (hshows : Shows x y frame) : y.Relays := by
  rcases h with ⟨-, hoff⟩ | ⟨answer, fs, last, hx⟩
  · rw [hreading] at hoff
    cases hoff
  · obtain rfl := hx.reading hreading
    have hall : x.reads = answer :: fs := by
      rw [hx.reads, Option.toList_none, List.append_nil]
    refine .inr ?_
    rcases hshows with ⟨event, hevent, hevents, -⟩ | ⟨hevents, hoff⟩
    · refine ⟨answer, fs ++ [frame], none, hx.accepted, ?_, ?_, fun _ => rfl⟩
      · rw [hreads.reads, hall, Option.toList_none, List.append_nil, List.cons_append]
      · rw [hevents]
        exact List.rel_append hx.events (.cons hevent .nil)
    · refine ⟨answer, fs, some frame, hx.accepted, ?_, hevents ▸ hx.events, fun hon => ?_⟩
      · rw [hreads.reads, hall, Option.toList_some, List.cons_append]
      · rw [hon] at hoff
        cases hoff

end Session

variable {admits : State → Event → Prop} {s t : State} {e : Event} {k : ℕ} {x y : Session}

theorem Step.relays (h : Step s e t) (hr : Reachable admits s)
    (hs : ∀ k x, s.sessions k = some x → x.Relays) (hy : t.sessions k = some y) : y.Relays := by
  cases h.becomes hy with
  | idle hx => exact hs k y hx
  | connect _ _ _ => exact .inl ⟨rfl, rfl⟩
  | @registered x frame hx hphase _ =>
    rw [(sessionOk hr hx).fresh hphase]
    unfold Session.registered
    simp only
    split_ifs with htype
    · exact .inr ⟨frame, [], none, htype, rfl, .nil, fun _ => rfl⟩
    · exact .inl ⟨rfl, rfl⟩
  | abandoned hx hphase _ _ =>
    rw [(sessionOk hr hx).fresh hphase]
    exact .inl ⟨rfl, rfl⟩
  | read hx _ hreading _ =>
    exact (hs k _ hx).read hreading (Session.pumpCoreToWs_reads ..) (Session.pumpCoreToWs_shows ..)
  | @command x loaded hx _ _ =>
    have hw := Session.pumpWsToCore_writes s.db x loaded
    exact (hs k _ hx).of_eq (Session.pumpWsToCore_events ..) hw.reads fun hon => hw.reading ▸ hon
  | finish hx =>
    exact (hs k _ hx).of_eq rfl rfl fun hon => (Bool.and_eq_true _ _ ▸ hon).1
  | halt hx _ => exact (hs k _ hx).of_eq rfl rfl fun hon => (by cases hon)

theorem relays (h : Reachable admits s) (hx : s.sessions k = some x) : x.Relays := by
  refine Transition.Reachable.invariant
    (P := fun s => ∀ k x, s.sessions k = some x → x.Relays) ?_ ?_ h k x hx
  · rintro s ⟨-, hnone, -⟩ k x hx
    rw [hnone] at hx
    cases hx
  · rintro s t hr hs ⟨e, -, hst⟩ k y hy
    exact hst.relays hr hs hy

theorem exists_of_forall₂ {α β : Type*} {R : α → β → Prop} {l : List α} {r : List β}
    (h : List.Forall₂ R l r) {b : β} (hb : b ∈ r) : ∃ a ∈ l, R a b := by
  induction h with
  | nil => cases hb
  | cons hab _ ih =>
    rcases List.mem_cons.mp hb with rfl | hb
    · exact ⟨_, List.mem_cons_self, hab⟩
    · obtain ⟨a, ha, hR⟩ := ih hb
      exact ⟨a, List.mem_cons_of_mem _ ha, hR⟩

/-- An event that the browser was sent was made of a frame that was enqueued to the connection. -/
theorem exists_frame (h : Reachable admits s) (hx : s.sessions k = some x) {event : GatewayEvent}
    (hevent : event ∈ x.events) : ∃ frame,
    Core.Effect.enqueued k frame ∈ s.core.trace ∧ gatewayEvent frame = .ok event := by
  rcases relays h hx with ⟨hnil, -⟩ | ⟨answer, fs, last, hrel⟩
  · rw [hnil] at hevent
    cases hevent
  · obtain ⟨frame, hframe, hmade⟩ := exists_of_forall₂ hrel.events hevent
    have hread : frame ∈ x.reads := by
      rw [hrel.reads]
      exact List.mem_cons_of_mem _ (List.mem_append_left _ hframe)
    exact ⟨frame, Core.mem_trace_of_mem_enqueuedTo ((sessionOk h hx).reads.subset hread), hmade⟩

/-- The answer to `HELLO` is no text. -/
theorem isMessage_of_ok {frame : Frame} (h : frame.type = ServerMsgType.ok.toByte) :
    Core.isMessage frame = false := by
  obtain ⟨type, payload⟩ := frame
  obtain rfl : type = _ := h
  rfl

/-- The texts the browser was shown are those of the first messages enqueued to its connection, and
of all of them when all were read. -/
theorem exists_texts (h : Reachable admits s) (hx : s.sessions k = some x) :
    ∃ fs, fs <+: Core.messagesTo k s.core.trace ∧
      List.Forall₂ (fun frame event => gatewayEvent frame = .ok event) fs
        (x.events.filter GatewayEvent.isText) ∧
      (x.reading = true → x.reads = Core.enqueuedTo k s.core.trace →
        fs = Core.messagesTo k s.core.trace) := by
  rcases relays h hx with ⟨hnil, hoff⟩ | ⟨answer, fs, last, hrel⟩
  · refine ⟨[], List.nil_prefix, by rw [hnil]; exact .nil, fun hon => ?_⟩
    rw [hoff] at hon
    cases hon
  · have hfirst : (answer :: fs).filter Core.isMessage = fs.filter Core.isMessage :=
      List.filter_cons_of_neg (by rw [isMessage_of_ok hrel.accepted]; exact Bool.false_ne_true)
    have hreads : answer :: fs <+: x.reads := by
      rw [hrel.reads, ← List.cons_append]
      exact List.prefix_append ..
    refine ⟨fs.filter Core.isMessage, ?_, ?_, fun hon hall => ?_⟩
    · rw [← hfirst]
      exact (hreads.trans (sessionOk h hx).reads).filter _
    · refine List.rel_filter (fun frame event hevent => ?_) hrel.events
      simp only [isText_eq hevent]
    · rw [Core.messagesTo, ← hall, hrel.reads, hrel.reading hon, Option.toList_none,
        List.append_nil, hfirst]

/-- **All browsers are shown one log.**  In every reachable state, take the log of a run of the
core to its state: all that was said, each by the turn that asked for it and to those it was meant
for by the memberships and names of the core in the state of that turn.  The texts and notices a
browser was shown are what `gateway_event` makes of the first messages of the log that are meant
for its connection, each once and in the order of the log; and of all of them, when the session
has read what the core enqueued to a connection that is still there. -/
theorem browsers_are_shown_one_log (h : Reachable admits s) :
    (∃ log, Core.Chronicle s.core log) ∧ ∀ log, Core.Chronicle s.core log →
      ∀ k x, s.sessions k = some x → ∃ es, es <+: ChatService.dueIn log k ∧
        List.Forall₂ (fun e event => gatewayEvent (Core.messageFrame e) = .ok event) es
          (x.events.filter GatewayEvent.isText) ∧
        (x.reading = true → x.reads = Core.enqueuedTo k s.core.trace →
          (∃ i, (s.core.clients i).Live ∧ (s.core.clients i).conn = k) →
            es = ChatService.dueIn log k) := by
  refine ⟨Core.exists_chronicle (Reachable.core h), fun log hlog k x hx => ?_⟩
  obtain ⟨a, ha, hshows, rfl⟩ := hlog.exists_chat
  have hagrees := ChatService.agreement ha
  obtain ⟨fs, hfs, hevents, hall⟩ := exists_texts h hx
  rw [← hshows.inbox] at hfs hall
  obtain ⟨rest, hrest⟩ := hfs
  obtain ⟨es, es', hes, rfl, -⟩ := List.map_eq_append_iff.mp hrest.symm
  refine ⟨es, .trans ⟨es', hes.symm⟩ (hagrees k).1, List.forall₂_map_left_iff.mp hevents, ?_⟩
  rintro hon hread ⟨i, hlive, rfl⟩
  have hlen := congrArg List.length (hall hon hread)
  rw [List.length_map, List.length_map, hes, List.length_append] at hlen
  obtain rfl := List.length_eq_zero_iff.mp (by omega : es'.length = 0)
  rw [List.append_nil] at hes
  rw [← hes, (hagrees _).2 (by rw [hshows.user i hlive]; exact Option.some_ne_none _)]
  rfl

/-- `alice` says something, and both read it. -/
def saidInRoom : List Op := inRoom ++ [.command 1 (.ok (.object (sayMessage "hi"))),
  .deliver 0 (sayFrame "hi"), .flush 0, .read 1, .flush 1, .read 2]

/-- `bob` was shown what `alice` said. -/
theorem browsers_are_shown_one_log_room : ∃ log e,
    Core.Chronicle (twoUsers.run saidInRoom).core log ∧ e ∈ ChatService.dueIn log 2 ∧
    ∃ event, gatewayEvent (Core.messageFrame e) = .ok event ∧ event.isText = true := by
  have hlegal : Throughout (Enabled [1, 2]) twoUsers saidInRoom := by decide +kernel
  obtain ⟨⟨log, hlog⟩, hshown⟩ := browsers_are_shown_one_log (schedule_reachable
    (.init initial_twoUsers) (fun _ _ => rfl) hlegal
    (hlegal.mono fun s op _ => admitted_true s op))
  obtain ⟨x, hx, htold⟩ : ∃ x ∈ (twoUsers.run saidInRoom).sessions 2,
      (x.events.filter GatewayEvent.isText).length = 1 := by decide +kernel
  obtain ⟨event, hevents⟩ := List.length_eq_one_iff.mp htold
  obtain ⟨es, hes, hforall, -⟩ := hshown log hlog 2 x hx
  rw [hevents] at hforall
  obtain ⟨e, es', he, -, rfl⟩ := List.forall₂_cons_right_iff.mp hforall
  refine ⟨log, e, hlog, hes.subset (List.mem_cons_self ..), event, he, ?_⟩
  exact (List.mem_filter.mp (hevents ▸ List.mem_singleton.mpr rfl)).2

end Gateway
end ChannelWire
