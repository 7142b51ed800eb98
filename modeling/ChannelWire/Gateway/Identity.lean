import ChannelWire.Core.Renaming
import ChannelWire.Gateway.Runs

/-!
# The identity of a session

A session registers under the subject of its token, and the gateway stores messages under that
name or under the sender that a frame of the core carries.  The two names are the same as long as
the connection keeps the name of its `HELLO`.  It need not: `nick` is one of the commands that the
gateway forwards, so `KeepsName` says that an event is no `NICK` of the session that the core
accepts under another name.
-/

namespace ChannelWire
namespace Gateway

open Utf8

/-! ## Names in frames -/

/-- The core reads the name of a `HELLO` as it was sent. -/
theorem readName_helloFrame (u : Username) :
    Core.readName (helloFrame u).payload Core.cwNameCap = some u.bytes := by
  have hvalid := u.cwValidName_bytes
  obtain ⟨-, hmax, hchars⟩ := cwValidName_eq_true.mp hvalid
  have hzero : (0 : UInt8) ∉ u.bytes := fun h => absurd (hchars 0 h) (by decide)
  have hread := @cwReadString_stringField [] u.bytes [] (Core.cwNameCap + 1)
    (hmax.trans (by decide)) (Nat.lt_succ_of_le hmax)
  rw [List.nil_append, List.append_nil, List.length_nil, Nat.zero_add] at hread
  have hone : Core.readOneStringPayload (helloFrame u).payload (Core.cwNameCap + 1) =
      some u.bytes := by
    unfold Core.readOneStringPayload helloFrame
    simp only
    rw [hread]
    simp only
    rw [if_pos ((Nat.add_comm ..).trans (length_stringField _).symm), cstr_of_zero_notMem hzero]
  unfold Core.readName
  rw [hone]
  exact if_pos hvalid

/-- What the gateway decodes from the fields of a frame. -/
theorem decodeStrings_fields_ok {encoded : List Bytes} {values : List PyStr}
    (hlen : ((encoded.map stringField).flatten).length ≤ cwMaxPayloadSize)
    (h : decodeStrings (encoded.map stringField).flatten = .ok values) :
    List.Forall₂ (fun v b => decode b = some v) values encoded :=
  decodeStringsLoop_fields_ok (length_lt_of_fields hlen) h

/-- A message that carries the name of a user is decoded to that name. -/
theorem sender_of_saidAs {u : Username} {turn : Core.Turn} {k : ℕ} {frame : Frame} {sender : PyStr}
    (hsaid : turn.SaidAs u.bytes) (ho : (k, frame) ∈ turn.output)
    (hsmall : frame.payload.length ≤ cwMaxPayloadSize)
    (htext : (frame.type = ServerMsgType.chat.toByte ∧
        ∃ channel text, decodeStrings frame.payload = .ok [channel, sender, text]) ∨
      (frame.type = ServerMsgType.dmRecv.toByte ∧
        ∃ text, decodeStrings frame.payload = .ok [sender, text])) : sender = u.name := by
  obtain ⟨hchat, hdm⟩ := hsaid _ ho
  have hname : decode u.bytes = some sender := by
    rcases htext with ⟨htype, channel, text, hdecode⟩ | ⟨htype, text, hdecode⟩
    · obtain ⟨channel', text', hpayload⟩ := hchat htype
      simp only at hpayload
      rw [hpayload] at hsmall hdecode
      have hfields := decodeStrings_fields_ok hsmall hdecode
      simp only [List.forall₂_cons] at hfields
      exact hfields.2.1
    · obtain ⟨text', hpayload⟩ := hdm htype
      simp only at hpayload
      rw [hpayload] at hsmall hdecode
      have hfields := decodeStrings_fields_ok hsmall hdecode
      simp only [List.forall₂_cons] at hfields
      exact hfields.1
  exact (Option.some.inj (u.decode_bytes.symm.trans hname)).symm

/-! ## The rows of a session -/

/-- Where the sender of a stored row comes from: from the session if the row was taken from
`pending_dms`, and from the frame that was read otherwise. -/
def SenderOk (x : Session) (r : Stored) : Prop :=
  if r.own = true then r.row.sender = x.username.name
  else ∃ f, x.reads[r.index]? = some f ∧
    ((f.type = ServerMsgType.chat.toByte ∧
        ∃ channel text, decodeStrings f.payload = .ok [channel, r.row.sender, text]) ∨
      (f.type = ServerMsgType.dmRecv.toByte ∧
        ∃ text, decodeStrings f.payload = .ok [r.row.sender, text]))

theorem SenderOk.mono {x y : Session} {r : Stored} (h : SenderOk x r)
    (husername : y.username = x.username) (hreads : x.reads <+: y.reads) : SenderOk y r := by
  unfold SenderOk at h ⊢
  split_ifs at h ⊢ with hown
  · rw [husername]
    exact h
  · obtain ⟨f, hf, htext⟩ := h
    refine ⟨f, ?_, htext⟩
    obtain ⟨rest, hrest⟩ := hreads
    rw [← hrest, List.getElem?_append_left (List.getElem?_eq_some_iff.mp hf).1]
    exact hf

namespace Session

theorem mem_save_stored {x : Session} {index : ℕ} {tx : Transaction} {own : Bool}
    {event : GatewayEvent} {r : Stored} (h : r ∈ (x.save index tx own event).1.stored) :
    r ∈ x.stored ∨ ∃ row ∈ tx.added.messages, r = ⟨row, index, own⟩ := by
  unfold save at h
  cases hcommit : tx.commit with
  | none =>
    rw [hcommit] at h
    exact .inl h
  | some db =>
    rw [hcommit] at h
    rcases List.mem_append.mp h with h | h
    · exact .inl h
    · obtain ⟨row, hrow, rfl⟩ := List.mem_map.mp h
      exact .inr ⟨row, hrow, rfl⟩

/-- A round of `pump_core_to_ws` stores what the frame says, or a pending direct message under the
name of the session. -/
theorem pumpCoreToWs_senders {active : PyStr → ℕ} {db : Database} {x : Session} {frame : Frame}
    {r : Stored} (h : r ∈ (x.pumpCoreToWs active db frame).1.stored) :
    r ∈ x.stored ∨ SenderOk (x.pumpCoreToWs active db frame).1 r := by
  have hy := pumpCoreToWs_reads active db x frame
  have hlast : (x.pumpCoreToWs active db frame).1.reads[x.reads.length]? = some frame := by
    rw [hy.reads]
    exact List.getElem?_concat_length ..
  suffices hnew : r ∈ x.stored ∨
      (r.own = true ∧ r.row.sender = x.username.name) ∨
      (r.own = false ∧ r.index = x.reads.length ∧ ∃ event, gatewayEvent frame = .ok event ∧
        ((∃ channel text, event = .chat channel r.row.sender text) ∨
          ∃ text, event = .dm r.row.sender text)) by
    rcases hnew with hold | ⟨hown, hsender⟩ | ⟨hown, hindex, event, hevent, hsender⟩
    · exact .inl hold
    · refine .inr ?_
      rw [SenderOk, if_pos hown, hy.username]
      exact hsender
    · refine .inr ?_
      have hof := gatewayEvent_of hevent
      rw [SenderOk, if_neg (by rw [hown]; exact Bool.false_ne_true), hindex]
      refine ⟨frame, hlast, ?_⟩
      rcases hsender with ⟨channel, text, rfl⟩ | ⟨text, rfl⟩
      · exact .inl ⟨hof.1, channel, text, hof.2⟩
      · exact .inr ⟨hof.1, text, hof.2⟩
  unfold pumpCoreToWs at h
  simp only at h
  cases hevent : gatewayEvent frame with
  | error e =>
    rw [hevent] at h
    exact .inl h
  | ok event =>
    rw [hevent] at h
    cases event with
    | chat channel sender text =>
      simp only at h
      split_ifs at h with hsender
      · rcases mem_save_stored h with h | ⟨row, hrow, rfl⟩
        · exact .inl h
        · rw [Transaction.saveChannelMessage_messages, List.mem_singleton] at hrow
          subst hrow
          exact .inr (.inr ⟨rfl, rfl, _, rfl, .inl ⟨channel, text, rfl⟩⟩)
      · exact .inl h
    | dm sender text =>
      simp only at h
      split_ifs at h with hactive
      · rcases mem_save_stored h with h | ⟨row, hrow, rfl⟩
        · exact .inl h
        · rw [Transaction.saveDm_messages, List.mem_singleton] at hrow
          subst hrow
          exact .inr (.inr ⟨rfl, rfl, _, rfl, .inr ⟨text, rfl⟩⟩)
      · exact .inl h
    | ok message =>
      simp only at h
      split_ifs at h with hsent
      · split at h
        · exact .inl h
        · rcases mem_save_stored h with h | ⟨row, hrow, rfl⟩
          · exact .inl h
          · rw [Transaction.saveDm_messages, List.mem_singleton] at hrow
            subst hrow
            exact .inr (.inl ⟨rfl, rfl⟩)
      · exact .inl h
    | error _ | who _ | channels _ | system _ | coreStats _ | coreStatsRaw _ | raw _ _ => exact .inl h

end Session

variable {admits : State → Event → Prop} {s : State} {k : ℕ} {x : Session}

theorem senderOk (h : Reachable admits s) (hx : s.sessions k = some x) :
    ∀ r ∈ x.stored, SenderOk x r := by
  refine Transition.Reachable.invariant
    (P := fun s => ∀ k x, s.sessions k = some x → ∀ r ∈ x.stored, SenderOk x r) ?_ ?_ h k x hx
  · rintro s ⟨-, hnone, -⟩ k x hx
    rw [hnone] at hx
    cases hx
  · rintro s t - hs ⟨e, -, hst⟩ k y hy r hr
    cases hst.becomes hy with
    | idle hx => exact hs k y hx r hr
    | connect _ _ _ => cases hr
    | @registered x frame hx _ _ =>
      rw [Session.registered_stored] at hr
      refine (hs k x hx r hr).mono (x.registered_username frame) ?_
      rw [Session.registered_reads]
      exact List.prefix_append ..
    | abandoned hx _ _ _ => exact (hs k _ hx r hr).mono rfl (List.prefix_append ..)
    | @read x frame hx _ _ _ =>
      have hnew := Session.pumpCoreToWs_reads s.active s.db x frame
      rcases Session.pumpCoreToWs_senders hr with hold | hok
      · refine (hs k x hx r hold).mono hnew.username ?_
        rw [hnew.reads]
        exact List.prefix_append ..
      · exact hok
    | @command x loaded hx _ _ =>
      have hnew := Session.pumpWsToCore_writes s.db x loaded
      rw [hnew.stored] at hr
      exact (hs k x hx r hr).mono hnew.username ⟨[], by rw [List.append_nil, hnew.reads]⟩
    | finish hx | halt hx _ => exact (hs k _ hx r hr).mono rfl List.prefix_rfl

/-! ## Runs in which a session keeps its name -/

/-- The event is no `NICK` of session `k` that the core accepts under another name. -/
def KeepsName (k : ℕ) (s : State) : Event → Prop
  | .core t => ∀ x i name frame, s.sessions k = some x → (s.core.clients i).conn = k →
    Core.TakesName s.core t i name frame → frame.type = ClientMsgType.nick.toByte →
    name = x.username.bytes
  | _ => True

/-- The core knows the session by its name. -/
structure IdentityOk (s : State) (k : ℕ) (x : Session) : Prop where
  named : Core.Named k x.username.bytes s.core
  said : ∀ turn ∈ Core.turns s.core.trace, turn.conn = k → turn.SaidAs x.username.bytes

/-- The only `HELLO` of a session is the one it was opened with. -/
theorem SessionOk.hello_eq (hs : SessionOk s k x) {f : Frame} (hf : f ∈ x.sent.map Sent.frame)
    (htype : f.type = ClientMsgType.hello.toByte) : f = helloFrame x.username := by
  obtain ⟨cs, hcs, hcommands⟩ := hs.sent
  rw [hcs, List.map_cons] at hf
  rcases List.mem_cons.mp hf with rfl | hf
  · rfl
  · obtain ⟨c, hc, rfl⟩ := List.mem_map.mp hf
    exact absurd htype (hcommands c hc).ne_hello

/-- A session takes the name of its token, or that of a `NICK`. -/
theorem SessionOk.takesName {t : State} {i : Core.Slot} {name : Bytes} {frame : Frame}
    (hs : SessionOk t k x) (hcore : Core.Reachable t.core) (hk : (s.core.clients i).conn = k)
    (h : Core.TakesName s.core t.core i name frame) :
    name = x.username.bytes ∨ frame.type = ClientMsgType.nick.toByte := by
  rcases h.type with hhello | hnick
  · have hmem := h.mem_handledBy
    rw [hk] at hmem
    have heq := hs.hello_eq ((hs.handled (Core.inputOk hcore)).subset hmem) hhello
    have hread := h.read
    rw [heq, readName_helloFrame] at hread
    exact .inl (Option.some.inj hread).symm
  · exact .inr hnick

theorem IdentityOk.step {t : State} {e : Event} {y : Session}
    (hr : Reachable (KeepsName k) s)
    (hid : ∀ x, s.sessions k = some x → IdentityOk s k x) (hkeeps : KeepsName k s e)
    (h : Step s e t) (hy : t.sessions k = some y) : IdentityOk t k y := by
  have hcore := Reachable.core hr
  have hrt : Reachable (KeepsName k) t := .step hr ⟨e, hkeeps, h⟩
  rcases h.core_cases with ⟨rfl, hstep, hsame, -⟩ | heq
  · have hok := sessionOk hrt hy
    rw [hsame] at hy
    have hx := hid y hy
    refine ⟨hx.named.step hstep fun i name frame hk htakes => ?_, ?_⟩
    · rcases hok.takesName (Reachable.core hrt) hk htakes with heq | hnick
      · exact heq
      · exact hkeeps y i name frame hy hk htakes hnick
    · rcases hstep.quiet_or_turn with hquiet | ⟨i, turn, hturn⟩
      · rw [Core.turns_of_silent hquiet]
        exact hx.said
      · rw [hturn.turns_eq]
        intro turn' hmem hk
        rcases List.mem_append.mp hmem with hmem | hmem
        · exact hx.said turn' hmem hk
        · obtain rfl := List.mem_singleton.mp hmem
          exact hturn.saidAs (hk ▸ hx.named)
  · have hkeep : ∀ x, s.sessions k = some x → y.username = x.username → IdentityOk t k y := by
      intro x hx husername
      have hold := hid x hx
      constructor
      · rw [husername, heq]
        exact hold.named
      · rw [husername, heq]
        exact hold.said
    cases h.becomes hy with
    | idle hx => exact hkeep y hx rfl
    | connect _ _ hmentions =>
      -- nothing was received on the connection yet, so it has no name and had no turn
      have hnone : ∀ e ∈ s.core.trace, e.Mentions k → e.begins = none := by
        intro e he hm
        rcases hmentions e he hm with rfl | ⟨r, rfl⟩ <;> rfl
      refine ⟨fun i hi hk hreg => ?_, fun turn hturn hk => ?_⟩
      · rw [heq] at hi hk hreg
        exact absurd (hk ▸ handledBy_eq_nil_of_new hmentions)
          (Core.handled_of_registered hcore hi hreg)
      · rw [heq] at hturn
        obtain ⟨e, he, hbegins, hm⟩ := Core.exists_mentions_of_mem_turns hturn
        rw [hnone e he (hk ▸ hm)] at hbegins
        cases hbegins
    | @registered x frame hx _ _ => exact hkeep x hx (x.registered_username frame)
    | abandoned hx _ _ _ => exact hkeep _ hx rfl
    | @read x frame hx _ _ _ =>
      exact hkeep x hx (Session.pumpCoreToWs_reads s.active s.db x frame).username
    | @command x loaded hx _ _ =>
      exact hkeep x hx (Session.pumpWsToCore_writes s.db x loaded).username
    | finish hx | halt hx _ => exact hkeep _ hx rfl

theorem identityOk (h : Reachable (KeepsName k) s) (hx : s.sessions k = some x) :
    IdentityOk s k x := by
  refine Transition.Reachable.invariant
    (P := fun s => ∀ x, s.sessions k = some x → IdentityOk s k x) ?_ ?_ h x hx
  · rintro s ⟨-, hnone, -⟩ x hx
    rw [hnone] at hx
    cases hx
  · rintro s t hr hs ⟨e, hkeeps, hst⟩ y hy
    exact IdentityOk.step hr hs hkeeps hst hy

/-! ## Two runs -/

/-- The message in which `alice` asks to be called `bob`. -/
def nickBob : Dict := [(py "type", .string (py "nick")), (py "username", .string (py "bob"))]

/-- The message in which she writes to `bob`. -/
def dmBob : Dict :=
  [(py "type", .string (py "dm")), (py "to", .string (py "bob")), (py "text", .string (py "hi"))]

/-- She asks, writes to her new name and reads all frames she gets. -/
def dmAsBob : List Op := aliceOnline ++ [.command 1 (.ok (.object nickBob)),
  .command 1 (.ok (.object dmBob)), .deliver 0 ⟨9, stringField (ascii "bob")⟩,
  .deliver 0 ⟨6, stringField (ascii "bob") ++ stringField (ascii "hi")⟩, .flush 0, .flush 0,
  .flush 0, .read 1, .read 1, .read 1]

/-- The frame in front of an input buffer. -/
def front (c : Core.Client) : Option Frame :=
  match frameHead cwMaxPayloadSize c.inbuf with
  | .item frame _ => some frame
  | _ => none

/-- No client has a `NICK` in front of its input buffer. -/
def NoNick (s : Core.Server) : Prop :=
  ∀ i, ∀ frame ∈ front (s.clients i), frame.type ≠ ClientMsgType.nick.toByte

instance (s : Core.Server) : Decidable (NoNick s) := by
  unfold NoNick
  infer_instance

/-- A condition on operations under which their events are those of `KeepsName`. -/
def NoNickOp (s : State) : Op → Prop
  | .connect _ _ | .flush _ => NoNick s.core
  | .deliver i frame => NoNick s.core ∧ NoNick (Core.recvChunk s.core i frame.encode)
  | .read _ | .command _ _ | .finish _ _ | .halt _ => True

instance (s : State) : (op : Op) → Decidable (NoNickOp s op)
  | .connect _ _ | .flush _ => inferInstanceAs (Decidable (NoNick _))
  | .deliver _ _ => inferInstanceAs (Decidable (NoNick _ ∧ NoNick _))
  | .read _ | .command _ _ | .finish _ _ | .halt _ => inferInstanceAs (Decidable True)

theorem keepsName_of_noNick (h : NoNick s.core) (t : Core.Server) : KeepsName k s (.core t) := by
  intro x i name frame _ _ htakes hnick
  obtain ⟨n, hhead⟩ := htakes.head
  exact absurd hnick (h i frame (by rw [front, hhead]; rfl))

theorem admitted_of_noNickOp (s : State) (op : Op) (h : NoNickOp s op) :
    Admitted (KeepsName k) s op := by
  cases op with
  | connect fd u => exact ⟨keepsName_of_noNick h _, trivial⟩
  | deliver i frame =>
    exact ⟨keepsName_of_noNick h.1 _, keepsName_of_noNick (s := s.setCore _) h.2 _⟩
  | flush i => exact keepsName_of_noNick h _
  | read _ | command _ _ | finish _ _ | halt _ => trivial

theorem reachable_dmOnly_keepsName : Reachable (KeepsName 1) (start.run dmOnly) :=
  reachable_of_schedule (by decide +kernel) (.mono admitted_of_noNickOp (by decide +kernel))

/-! ## Identity -/

/-- **A session that the core does not rename keeps its identity.**  In every run in which the core
accepts no `NICK` of the session under a name other than that of its token: while its tasks run, the
client on its connection is registered under that name; the `CHAT` and `DM_RECV` frames enqueued in
its turns carry that name; and the gateway stores under that name what the session stores from
`pending_dms`, and what any session stores on reading a frame that was enqueued in its turns. -/
theorem session_keeps_identity (h : Reachable (KeepsName k) s) (hx : s.sessions k = some x) :
    (x.phase = .running → ∀ i, (s.core.clients i).Live → (s.core.clients i).conn = k →
      (s.core.clients i).registered = true ∧ (s.core.clients i).username = x.username.bytes) ∧
    (∀ turn ∈ Core.turns s.core.trace, turn.conn = k → turn.SaidAs x.username.bytes) ∧
    (∀ r ∈ x.stored, r.own = true → r.row.sender = x.username.name) ∧
    ∀ j y f, s.sessions j = some y → ∀ r ∈ y.stored, r.own = false →
      (Core.origins j s.core.trace)[r.index]? = some (k, f) → r.row.sender = x.username.name := by
  have hcore := Reachable.core h
  have hid := identityOk h hx
  refine ⟨fun hphase i hl hk => ?_, hid.said, fun r hr hown => ?_, ?_⟩
  · have hs := sessionOk h hx
    obtain ⟨f, hf, htype⟩ := hs.running (.inl hphase)
    have hreg := Core.registered_of_ok hcore hl (hk ▸ hs.reads.subset hf) htype
    exact ⟨hreg, hid.named i hl hk hreg⟩
  · have hr := senderOk h hx r hr
    rwa [SenderOk, if_pos hown] at hr
  · intro j y f hy r hr hown horigin
    have hsender := senderOk h hy r hr
    rw [SenderOk, if_neg (by rw [hown]; exact Bool.false_ne_true)] at hsender
    obtain ⟨f', hf', htext⟩ := hsender
    -- the frame that was read is the one enqueued in the turn of the session
    have hframes := (Core.turnsOk hcore).origins_frame j
    obtain rfl : f' = f := by
      obtain ⟨rest, hrest⟩ := (sessionOk h hy).reads
      have hget : ((Core.origins j s.core.trace).map Prod.snd)[r.index]? = some f' := by
        rw [hframes, ← hrest, List.getElem?_append_left (List.getElem?_eq_some_iff.mp hf').1]
        exact hf'
      rw [List.getElem?_map, horigin] at hget
      exact (Option.some.inj hget).symm
    have hmem := List.mem_of_getElem? horigin
    have hsmall : f'.payload.length ≤ cwMaxPayloadSize := by
      refine (Core.outputOk (Core.Reachable.moveReachable hcore)).small j f' ?_
      rw [← hframes]
      exact List.mem_map_of_mem hmem
    obtain ⟨turn, hturn, hk, ho⟩ := Core.mem_origins.mp hmem
    exact sender_of_saidAs (hid.said turn hturn hk) ho hsmall htext

theorem session_keeps_identity_dmOnly : ∃ x, (start.run dmOnly).sessions 1 = some x ∧
    ((start.run dmOnly).core.clients 0).username = ascii "alice" ∧
    ∃ r ∈ x.stored, r.own = true ∧ r.row.sender = alice.name := by
  obtain ⟨x, hx, husername, hphase, r, hr, hown⟩ : ∃ x ∈ (start.run dmOnly).sessions 1,
      x.username = alice ∧ x.phase = .running ∧ ∃ r ∈ x.stored, r.own = true := by decide +kernel
  obtain ⟨hname, -, hsender, -⟩ := session_keeps_identity reachable_dmOnly_keepsName hx
  refine ⟨x, hx, ?_, r, hr, hown, ?_⟩
  · rw [(hname hphase 0 (by decide +kernel) (by decide +kernel)).2, husername]
    rfl
  · rw [hsender r hr hown, husername]

/-- `nick` gives the connection of a session another name, under which its messages are sent and
stored. -/
theorem nick_changes_identity : ∃ s x, Reachable (fun _ _ => True) s ∧
    s.sessions 1 = some x ∧ x.username = alice ∧ x.phase = .running ∧
    (s.core.clients 0).Live ∧ (s.core.clients 0).conn = 1 ∧
    (s.core.clients 0).username = ascii "bob" ∧
    (∃ turn ∈ Core.turns s.core.trace, turn.conn = 1 ∧
      (1, ⟨ServerMsgType.dmRecv.toByte, stringField (ascii "bob") ++ stringField (ascii "hi")⟩) ∈
        turn.output) ∧
    ∃ r ∈ x.stored, (Core.origins 1 s.core.trace)[r.index]?.map Prod.fst = some 1 ∧
      r.row = ⟨.dm, py "bob", none, some alice.name, py "hi"⟩ := by
  obtain ⟨x, hx, hrest⟩ : ∃ x ∈ (start.run dmAsBob).sessions 1, x.username = alice ∧
      x.phase = .running ∧ ((start.run dmAsBob).core.clients 0).Live ∧
      ((start.run dmAsBob).core.clients 0).conn = 1 ∧
      ((start.run dmAsBob).core.clients 0).username = ascii "bob" ∧
      (∃ turn ∈ Core.turns (start.run dmAsBob).core.trace, turn.conn = 1 ∧
        (1, ⟨ServerMsgType.dmRecv.toByte, stringField (ascii "bob") ++ stringField (ascii "hi")⟩) ∈
          turn.output) ∧
      ∃ r ∈ x.stored, (Core.origins 1 (start.run dmAsBob).core.trace)[r.index]?.map Prod.fst =
        some 1 ∧ r.row = ⟨.dm, py "bob", none, some alice.name, py "hi"⟩ := by decide +kernel
  exact ⟨_, x, reachable_of_legal (by decide +kernel), hx, hrest⟩

end Gateway
end ChannelWire
