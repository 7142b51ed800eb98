import ChannelWire.Core.Deliveries
import ChannelWire.Core.Membership

/-!
# The active channel, from the answers

Three commands change the active channel of a client, and each is answered with an `OK` that says
so.  `channelChanges` lists these commands for a connection, from its turns, and
`channelOk` gets the active channel of the client back from the list: a client enters a
channel with `JOIN` or `SWITCH`, and is in none after a `LEAVE` of the active one.  A `LEAVE` of
another channel leaves the active one alone, although its `OK` says the same.
-/

namespace ChannelWire
namespace Core

/-- An accepted command that changes the active channel, or may. -/
inductive ChannelChange where
  /-- `JOIN` or `SWITCH`. -/
  | enter (name : Bytes)
  | leave (name : Bytes)
  deriving DecidableEq

/-- The active channel after the command. -/
def ChannelChange.apply (active : Bytes) : ChannelChange → Bytes
  | enter name => name
  | leave name => if active = name then [] else active

/-- An `OK` with a text. -/
def okText (text : Bytes) : Frame := ⟨ServerMsgType.ok.toByte, text⟩

/-- What a turn changed: a `JOIN`, `SWITCH` or `LEAVE` that was answered with its `OK`. -/
def Turn.channelChange (turn : Turn) : Option ChannelChange :=
  turn.request.bind fun frame => (readName frame.payload cwChannelCap).bind fun name =>
    if frame.type = ClientMsgType.join.toByte ∧
        (turn.conn, okText (ascii "joined " ++ name)) ∈ turn.output ∨
      frame.type = ClientMsgType.switch.toByte ∧
        (turn.conn, okText (ascii "switched " ++ name)) ∈ turn.output then some (.enter name)
    else if frame.type = ClientMsgType.leave.toByte ∧
        (turn.conn, okText (ascii "left channel")) ∈ turn.output then some (.leave name)
    else none

/-- The accepted `JOIN`, `SWITCH` and `LEAVE` commands of connection `k`. -/
def channelChanges (k : ℕ) (trace : List Effect) : List ChannelChange :=
  (turns trace).filterMap fun turn => if turn.conn = k then turn.channelChange else none

/-- The texts of the `OK`s to the other commands. -/
def plainTexts : List Bytes := [ascii "registered", ascii "username changed", sentText]

/-- The frame says nothing about channels entered or left. -/
def Plain (frame : Frame) : Prop :=
  frame.type = ServerMsgType.ok.toByte → frame.payload ∈ plainTexts

theorem Plain.of_type {frame : Frame} (type : ServerMsgType) (h : frame.type = type.toByte)
    (hne : type ≠ .ok) : Plain frame :=
  fun hok => absurd (ServerMsgType.toByte_inj.mp (h.symm.trans hok)) hne

variable {s t u : Server} {i j : Slot} {frame : Frame} {type : ServerMsgType} {payload : Bytes}

/-! ## The client itself -/

theorem Gets.activeChannel (h : Gets j type payload s t) (hl : (t.clients j).Live) :
    (t.clients j).activeChannel = (s.clients j).activeChannel := by
  cases h with
  | appended _ hclient => rw [hclient]
  | reset _ hclient =>
    rw [hclient] at hl
    exact absurd hl (Client.not_live_reset _)

theorem enqueueOrDisconnect_activeChannel
    (hl : ((enqueueOrDisconnect s i type payload).clients j).Live) :
    ((enqueueOrDisconnect s i type payload).clients j).activeChannel =
      (s.clients j).activeChannel := by
  rcases eq_or_ne j i with rfl | hne
  · exact (enqueueOrDisconnect_gets ..).activeChannel hl
  · rw [enqueueOrDisconnect_clients_of_ne _ _ hne]

theorem enqueueOrDisconnect_live
    (hl : ((enqueueOrDisconnect s i type payload).clients j).Live) : (s.clients j).Live := by
  rcases eq_or_ne j i with rfl | hne
  · rw [enqueueOrDisconnect_clients_self hl] at hl
    exact hl
  · rwa [enqueueOrDisconnect_clients_of_ne _ _ hne] at hl

/-- A client that is there after the answer got it. -/
theorem output_of_live {text : Bytes} (htrace : u.trace = s.trace)
    (hl : ((safeEnqueueText u i type text).clients i).Live) :
    (recorded s (safeEnqueueText u i type text)).flatMap Effect.output =
      [((u.clients i).conn, ⟨type.toByte, text⟩)] := by
  have haccepts : Accepts u i text := by
    by_contra hnot
    obtain ⟨heap, hq⟩ := enqueueOrDisconnect_of_not_accepts type hnot
    rw [safeEnqueueText, hq, overflowDisconnect_clients, Function.update_self] at hl
    exact absurd hl (Client.not_live_reset _)
  obtain ⟨es, hes, houtput⟩ := output_of_accepts type haccepts
  rw [htrace] at hes
  exact (flatMap_recorded hes).trans houtput

/-- **What a request does to the active channel of its client**, and what it says of it. -/
inductive ChannelCase (s t : Server) (i : Slot) (frame : Frame) : Option ChannelChange → Prop where
  | kept : (t.clients i).activeChannel = (s.clients i).activeChannel → Enqueues Plain s t →
      ChannelCase s t i frame none
  | entered {word name : Bytes} :
      frame.type = ClientMsgType.join.toByte ∧ word = ascii "joined " ∨
        frame.type = ClientMsgType.switch.toByte ∧ word = ascii "switched " →
      readName frame.payload cwChannelCap = some name → (t.clients i).activeChannel = name →
      (recorded s t).flatMap Effect.output = [((s.clients i).conn, okText (word ++ name))] →
      ChannelCase s t i frame (some (.enter name))
  | left {name : Bytes} : frame.type = ClientMsgType.leave.toByte →
      readName frame.payload cwChannelCap = some name →
      (t.clients i).activeChannel =
        (if (s.clients i).activeChannel = name then [] else (s.clients i).activeChannel) →
      (recorded s t).flatMap Effect.output =
        [((s.clients i).conn, okText (ascii "left channel"))] →
      ChannelCase s t i frame (some (.leave name))

theorem ChannelCase.reply (hu : u.trace = s.trace)
    (hactive : (u.clients i).activeChannel = (s.clients i).activeChannel)
    (hplain : type = .ok → payload ∈ plainTexts)
    (hl : ((safeEnqueueText u i type payload).clients i).Live) :
    ChannelCase s (safeEnqueueText u i type payload) i frame none := by
  refine .kept ((enqueueOrDisconnect_activeChannel hl).trans hactive) ?_
  refine (Enqueues.of_trace hu).trans ((Enqueues.enqueue i type payload).mono fun f hf => ?_)
  rw [hf.2]
  exact fun hok => hplain (ServerMsgType.toByte_inj.mp hok)

theorem Ending.channelCase (h : Ending s i frame t) (hl : (t.clients i).Live) :
    ∃ change, ChannelCase s t i frame change := by
  cases h with
  | refused text => exact ⟨_, .reply rfl rfl (fun h => by cases h) hl⟩
  | registered _ _ =>
    exact ⟨_, .reply rfl (by rw [takeName, Server.setClient_self]) (fun _ => by decide) hl⟩
  | @renamed name _ _ =>
    have hsame := ((broadcastSystem_slot (s := safeEnqueueText (takeName s i name) i .ok
      (ascii "username changed")) (j := i) i (nickNotice (s.clients i) name)).2 (.inl rfl)).clients
    rw [hsame] at hl
    have hactive := enqueueOrDisconnect_activeChannel hl
    refine ⟨_, .kept (hsame ▸ hactive.trans (by rw [takeName, Server.setClient_self])) ?_⟩
    refine ((Enqueues.of_trace (Server.setClient_trace ..)).trans
      ((Enqueues.enqueue i .ok _).mono fun f hf _ => ?_)).trans
      ((Enqueues.broadcastSystem i _).mono fun f hf => .of_type .system hf (by decide))
    rw [hf.2]
    decide
  | @joined u idx name htype _ hread hensure =>
    obtain ⟨-, -, hname⟩ := readName_eq_some hread
    have hclients := (joined_confined hread hensure).1
    have htrace : u.trace = s.trace := by
      obtain ⟨-, rfl | ⟨-, rfl⟩⟩ := ensureChannel_channels hname hensure <;> rfl
    refine ⟨_, .entered (.inl ⟨htype, rfl⟩) hread ?_ ((output_of_live ?_ hl).trans ?_)⟩
    · exact (enqueueOrDisconnect_activeChannel hl).trans (by rw [enterChannel, Server.setClient_self])
    · exact htrace
    · rw [enterChannel, Server.setClient_self, hclients]
      rfl
  | switched htype hread _ _ =>
    refine ⟨_, .entered (.inr ⟨htype, rfl⟩) hread ?_ ((output_of_live rfl hl).trans ?_)⟩
    · exact (enqueueOrDisconnect_activeChannel hl).trans (by rw [Server.setClient_self])
    · rw [Server.setClient_self]
      rfl
  | left htype hread _ _ =>
    refine ⟨_, .left htype hread ?_ ((output_of_live rfl hl).trans ?_)⟩
    · exact (enqueueOrDisconnect_activeChannel hl).trans (by rw [exitChannel, Server.setClient_self])
    · rw [exitChannel, Server.setClient_self]
      rfl
  | said hsay =>
    obtain ⟨hshare, hother⟩ := chatSent_slot (j := i) hsay
    refine ⟨_, .kept ?_ ((Enqueues.chatSent ..).mono fun f hf => ?_)⟩
    · by_cases hmem : SharesChannel s i i
      · exact (hshare hmem).activeChannel hl
      · exact congrArg Client.activeChannel (hother hmem).clients
    · exact .of_type .chat (by rw [hf]) (by decide)
  | @sentDm target text _ _ =>
    have hlive := enqueueOrDisconnect_live hl
    have hactive := (enqueueOrDisconnect_activeChannel hl).trans
      (enqueueOrDisconnect_activeChannel hlive)
    refine ⟨_, .kept hactive ((Enqueues.sentDm i target _).mono fun f hf => ?_)⟩
    rcases hf with rfl | rfl
    · exact .of_type .dmRecv rfl (by decide)
    · exact fun _ => by decide
  | lostDm _ _ =>
    refine ⟨_, .kept (enqueueOrDisconnect_activeChannel hl) ?_⟩
    exact (Enqueues.enqueue ..).mono fun f hf => .of_type .dmRecv (by rw [hf.2]) (by decide)
  | @queried type text htype _ =>
    refine ⟨_, .reply rfl rfl (fun h => ?_) hl⟩
    subst h
    simp at htype
  | quit _ =>
    rw [disconnectClient_clients, Function.update_self] at hl
    exact absurd hl (Client.not_live_reset _)

/-! ## The other clients -/

/-- **A request leaves the active channels of the others alone.** -/
theorem Ending.activeChannel (h : Ending s i frame t) (hne : j ≠ i) (hl : (t.clients j).Live) :
    (t.clients j).activeChannel = (s.clients j).activeChannel := by
  have hreply : ∀ {u : Server} {type : ServerMsgType} {text : Bytes},
      u.clients j = s.clients j →
      ((safeEnqueueText u i type text).clients j).activeChannel = (s.clients j).activeChannel := by
    intro u type text hu
    rw [safeEnqueueText, enqueueOrDisconnect_clients_of_ne _ _ hne, hu]
  cases h with
  | refused _ | queried _ _ _ => exact hreply rfl
  | registered _ _ | switched _ _ _ _ | left _ _ _ _ => exact hreply (Server.setClient_of_ne hne)
  | @renamed name _ _ =>
    obtain ⟨hshare, hother⟩ := broadcastSystem_slot (s := safeEnqueueText (takeName s i name) i .ok
      (ascii "username changed")) (j := j) i (nickNotice (s.clients i) name)
    have hnamed : ((safeEnqueueText (takeName s i name) i .ok
        (ascii "username changed")).clients j).activeChannel = (s.clients j).activeChannel :=
      hreply (Server.setClient_of_ne hne)
    by_cases hmem : SharesChannel (safeEnqueueText (takeName s i name) i .ok
      (ascii "username changed")) i j
    · exact ((hshare hne hmem).activeChannel hl).trans hnamed
    · exact (congrArg Client.activeChannel (hother (.inr hmem)).clients).trans hnamed
  | joined _ _ hread hensure =>
    refine hreply ((Server.setClient_of_ne hne).trans ?_)
    rw [(joined_confined hread hensure).1]
  | said hsay =>
    obtain ⟨hshare, hother⟩ := chatSent_slot (j := j) hsay
    by_cases hmem : SharesChannel s i j
    · exact (hshare hmem).activeChannel hl
    · exact congrArg Client.activeChannel (hother hmem).clients
  | sentDm _ _ =>
    have hlive := enqueueOrDisconnect_live hl
    exact (enqueueOrDisconnect_activeChannel hl).trans (enqueueOrDisconnect_activeChannel hlive)
  | lostDm _ _ => exact enqueueOrDisconnect_activeChannel hl
  | quit _ => rw [disconnectClient_clients, Function.update_of_ne hne]

/-! ## One turn -/

variable {turn : Turn}

/-- What a connection is told in one turn, for what it changed. -/
def Announces (frames : List Frame) : Option ChannelChange → Prop
  | none => ∀ f ∈ frames, Plain f
  | some (.enter name) => ValidName name ∧
    ∃ word ∈ [ascii "joined ", ascii "switched "], frames = [okText (word ++ name)]
  | some (.leave _) => frames = [okText (ascii "left channel")]

theorem ne_plain_of_joined {word : Bytes} (text : Bytes) (h : word = ascii "joined " ∨
    word = ascii "switched " ∨ word = ascii "left channel") : ¬ Plain (okText (word ++ text)) := by
  intro hplain
  have hmem : word ++ text ∈ plainTexts := hplain rfl
  have hfirst : ∀ p ∈ plainTexts, p.head? ∈ [some 0x72, some 0x75, some 0x64] := by decide
  have hhead : (word ++ text).head? ∈ [some 0x6A, some 0x73, some 0x6C] := by
    rcases h with rfl | rfl | rfl
    · exact List.mem_cons_self
    · exact List.mem_cons_of_mem _ List.mem_cons_self
    · exact List.mem_cons_of_mem _ (List.mem_cons_of_mem _ List.mem_cons_self)
  have hboth := hfirst _ hmem
  simp only [List.mem_cons, List.not_mem_nil, or_false] at hhead
  rcases hhead with hhead | hhead | hhead <;>
    · rw [hhead] at hboth
      revert hboth
      decide

theorem ChannelCase.change_eq {w v : Server} {change : Option ChannelChange}
    (h : ChannelCase w v i frame change) (hreq : turn.request = some frame)
    (hconn : turn.conn = (w.clients i).conn)
    (houtput : (recorded w v).flatMap Effect.output = turn.output) :
    turn.channelChange = change ∧ Announces (turn.outputTo turn.conn) change := by
  rw [Turn.channelChange, hreq, Option.bind_some]
  cases h with
  | kept _ hplain =>
    have hall : ∀ o ∈ turn.output, Plain o.2 := by
      intro o ho
      rw [← houtput] at ho
      obtain ⟨e, he, hmem⟩ := List.mem_flatMap.mp ho
      cases e with
      | enqueued k f =>
        rw [List.mem_singleton.mp hmem]
        exact hplain.mem_recorded he
      | _ => cases hmem
    refine ⟨?_, fun f hf => hall _ (mem_outputTo.mp hf)⟩
    cases hread : readName frame.payload cwChannelCap with
    | none => rfl
    | some name =>
      rw [Option.bind_some, if_neg, if_neg]
      · rintro ⟨-, hleft⟩
        exact ne_plain_of_joined [] (.inr (.inr rfl)) (hall _ hleft)
      · rintro (⟨-, hjoined⟩ | ⟨-, hswitched⟩)
        · exact ne_plain_of_joined _ (.inl rfl) (hall _ hjoined)
        · exact ne_plain_of_joined _ (.inr (.inl rfl)) (hall _ hswitched)
  | @entered word name htype hread _ hsaid =>
    rw [houtput, ← hconn] at hsaid
    obtain ⟨-, hvalid, -⟩ := readName_eq_some hread
    rw [hread, Option.bind_some, hsaid, if_pos]
    · refine ⟨rfl, hvalid, word, ?_, ?_⟩
      · rcases htype with ⟨-, rfl⟩ | ⟨-, rfl⟩
        · exact List.mem_cons_self
        · exact List.mem_cons_of_mem _ List.mem_cons_self
      · rw [Turn.outputTo, hsaid]
        simp
    · rcases htype with ⟨htype, rfl⟩ | ⟨htype, rfl⟩
      · exact .inl ⟨htype, List.mem_singleton_self _⟩
      · exact .inr ⟨htype, List.mem_singleton_self _⟩
  | left htype hread _ hsaid =>
    rw [houtput, ← hconn] at hsaid
    rw [hread, Option.bind_some, hsaid, if_neg, if_pos ⟨htype, List.mem_singleton_self _⟩]
    · refine ⟨rfl, ?_⟩
      show turn.outputTo turn.conn = _
      rw [Turn.outputTo, hsaid]
      simp
    · rintro (⟨htype', -⟩ | ⟨htype', -⟩) <;>
        cases ClientMsgType.toByte_inj.mp (htype.symm.trans htype')

/-- What a connection changed in a turn. -/
def changeFor (k : ℕ) (turn : Turn) : Option ChannelChange :=
  if turn.conn = k then turn.channelChange else none

/-- **A turn, seen from a client that is there after it.** -/
theorem TakesTurn.changes (h : TakesTurn s t i turn) (hr : Reachable s)
    (hl : (t.clients j).Live) :
    (t.clients j).activeChannel =
        ((changeFor (t.clients j).conn turn).toList.foldl ChannelChange.apply
          (s.clients j).activeChannel) ∧
      Announces (turn.outputTo (t.clients j).conn) (changeFor (t.clients j).conn turn) := by
  obtain ⟨hlj, hconn⟩ := h.after j hl
  have hn := numbered hr.moveReachable
  rw [hconn]
  by_cases hown : j = i
  · subst hown
    rw [changeFor, if_pos h.conn]
    cases hreq : turn.request with
    | none =>
      have hreject := h.rejects hreq
      rw [Turn.channelChange, hreq]
      refine ⟨?_, fun f hf => ?_⟩
      · rw [hreject] at hl ⊢
        exact enqueueOrDisconnect_activeChannel hl
      · obtain ⟨j', type, payload, -, -, hframe, hemits⟩ := h.sends _ (mem_outputTo.mp hf)
        intro hok
        have hframe' : f = ⟨type.toByte, payload⟩ := hframe
        rw [hframe'] at hok
        obtain rfl := ServerMsgType.toByte_inj.mp hok
        obtain ⟨-, t', ht', -⟩ := hemits
        rw [requestOf, hreq] at ht'
        have hzero : (0 : UInt8) = t'.toByte := ht'
        exact absurd hzero (by cases t' <;> decide)
    | some frame =>
      obtain ⟨v, hserves⟩ := h.serves hr hreq
      obtain ⟨inbuf, hclient⟩ := hserves.clients j
      have hlv : (v.clients j).Live := by
        rw [hclient] at hl
        exact hl
      obtain ⟨change, hcase⟩ := hserves.ending.channelCase hlv
      obtain ⟨heq, hannounces⟩ := hcase.change_eq hreq h.conn hserves.output
      rw [heq, ← h.conn]
      refine ⟨?_, hannounces⟩
      rw [hclient]
      cases hcase with
      | kept hactive _ => exact hactive
      | entered _ _ hactive _ => exact hactive
      | left _ _ hactive _ => exact hactive
  · have hne : turn.conn ≠ (s.clients j).conn := by
      rw [h.conn]
      exact fun heq => hown (hn.unique j i hlj h.live heq.symm)
    rw [changeFor, if_neg hne]
    refine ⟨?_, fun f hf hok => ?_⟩
    · cases hreq : turn.request with
      | none =>
        rw [h.rejects hreq] at hl ⊢
        exact enqueueOrDisconnect_activeChannel hl
      | some frame =>
        obtain ⟨v, hserves⟩ := h.serves hr hreq
        obtain ⟨inbuf, hclient⟩ := hserves.clients j
        rw [hclient] at hl ⊢
        exact hserves.ending.activeChannel hown hl
    · have hreply : isReply f = true := by
        rw [isReply, hok, ServerMsgType.ofByte_toByte]
        rfl
      exact absurd (h.turnOk.own _ (mem_outputTo.mp hf) hreply).symm hne

/-! ## Every run -/

/-- What a connection was told, and what it changed. -/
inductive Told : List Frame → List ChannelChange → Prop where
  | nil : Told [] []
  | turn {frames new : List Frame} {changes : List ChannelChange} {change : Option ChannelChange} :
      Told frames changes → Announces new change →
      Told (frames ++ new) (changes ++ change.toList)

/-- **The active channel of a client follows from the commands of its connection**, and so do the
answers about it. -/
structure ChannelOk (s : Server) (j : Slot) : Prop where
  active : (s.clients j).activeChannel =
    (channelChanges (s.clients j).conn s.trace).foldl ChannelChange.apply []
  told : Told (enqueuedTo (s.clients j).conn s.trace) (channelChanges (s.clients j).conn s.trace)

theorem channelChanges_eq (k : ℕ) (trace : List Effect) :
    channelChanges k trace = (turns trace).filterMap (changeFor k) := rfl

/-- What a step that is no turn may change of a client is its buffers. -/
def SameButBuffers (c d : Client) : Prop :=
  ∃ inbuf out queuedBytes, d = { c with inbuf := inbuf, out := out, queuedBytes := queuedBytes }

theorem SameButBuffers.refl (c : Client) : SameButBuffers c c := ⟨c.inbuf, c.out, c.queuedBytes, rfl⟩

/-- A step that is no turn leaves a client as it is, but for its buffers, or accepts the client. -/
theorem Step.client_or_turn (h : Step s t) (hl : (t.clients j).Live) :
    (∃ i turn, TakesTurn s t i turn) ∨
      ((s.clients j).Live ∧ SameButBuffers (s.clients j) (t.clients j) ∨
        ∃ fd, t.clients j =
          { Client.blank with fd := fd, conn := s.stats.totalConnections + 1 }) := by
  have hsame : ∀ {k : Slot} {c : Client}, t.clients = Function.update s.clients k c →
      (c.Live → (s.clients k).Live ∧ SameButBuffers (s.clients k) c) →
      (s.clients j).Live ∧ SameButBuffers (s.clients j) (t.clients j) := by
    intro k c hclients hc
    rw [hclients] at hl ⊢
    rcases eq_or_ne j k with rfl | hne
    · rw [Function.update_self] at hl ⊢
      exact hc hl
    · rw [Function.update_of_ne hne] at hl ⊢
      exact ⟨hl, .refl _⟩
  cases h with
  | @accept fd nonblocking hfd =>
    rcases acceptConnection_cases s fd nonblocking with heq | ⟨slot, heq⟩
    · rw [heq] at hl ⊢
      exact .inr (.inl ⟨hl, .refl _⟩)
    · rcases eq_or_ne j slot with rfl | hne
      · refine .inr (.inr ⟨fd, ?_⟩)
        rw [heq]
        exact Function.update_self ..
      · have hclient : (acceptConnection s fd nonblocking).clients j = s.clients j := by
          rw [heq]
          exact Function.update_of_ne hne ..
        rw [hclient] at hl ⊢
        exact .inr (.inl ⟨hl, .refl _⟩)
  | recv hlive _ _ => exact .inr (.inl (hsame rfl fun _ => ⟨hlive, _, _, _, rfl⟩))
  | drain hlive =>
    rcases drainTurn_quiet_or_turn hlive with heq | ⟨turn, hturn⟩
    · rw [heq] at hl ⊢
      exact .inr (.inl ⟨hl, .refl _⟩)
    · exact .inl ⟨_, turn, hturn⟩
  | send hlive hout _ _ =>
    obtain ⟨out, queuedBytes, hclients, -⟩ := takeSent_clients hout
    exact .inr (.inl (hsame hclients fun _ => ⟨hlive, _, _, _, rfl⟩))
  | disconnect hlive =>
    exact .inr (.inl (hsame (disconnectClient_clients ..)
      fun hc => absurd hc (Client.not_live_reset _)))

/-- A connection that was just accepted has had no turn. -/
theorem channelChanges_of_fresh {k : ℕ} {trace : List Effect}
    (h : ∀ e ∈ trace, ¬ e.Mentions k) : channelChanges k trace = [] := by
  refine List.filterMap_eq_nil_iff.mpr fun turn hturn => if_neg ?_
  rintro rfl
  obtain ⟨e, he, -, hmentions⟩ := exists_mentions_of_mem_turns hturn
  exact h e he hmentions

theorem ChannelOk.takesTurn (hs : ∀ j, (s.clients j).Live → ChannelOk s j) (hr : Reachable s)
    (h : TakesTurn s t i turn) (hl : (t.clients j).Live) : ChannelOk t j := by
  obtain ⟨hlj, hconn⟩ := h.after j hl
  obtain ⟨hactive, hannounces⟩ := h.changes hr hl
  obtain ⟨hold, htold⟩ := hs j hlj
  rw [← hconn] at hold htold
  have hchanges : channelChanges (t.clients j).conn t.trace =
      channelChanges (t.clients j).conn s.trace ++
        (changeFor (t.clients j).conn turn).toList := by
    rw [channelChanges_eq, h.turns_eq, List.filterMap_append, ← channelChanges_eq]
    congr 1
  refine ⟨?_, ?_⟩
  · rw [hactive, hchanges, List.foldl_append, ← hold]
  · rw [hchanges, h.enqueuedTo_eq]
    exact .turn htold hannounces

theorem ChannelOk.step (hs : ∀ j, (s.clients j).Live → ChannelOk s j) (hr : Reachable s)
    (h : Step s t) (hl : (t.clients j).Live) : ChannelOk t j := by
  rcases h.quiet_or_turn with hsilent | ⟨i, turn, hturn⟩
  · have hchanges : ∀ k, channelChanges k t.trace = channelChanges k s.trace := fun k => by
      rw [channelChanges_eq, channelChanges_eq, turns_of_silent hsilent]
    rcases h.client_or_turn hl with
      ⟨i, turn, hturn⟩ | ⟨hlj, inbuf, out, queuedBytes, hclient⟩ | ⟨fd, hclient⟩
    · exact .takesTurn hs hr hturn hl
    · obtain ⟨hold, htold⟩ := hs j hlj
      refine ⟨?_, ?_⟩
      · rw [hclient, hchanges]
        exact hold
      · rw [hclient, hchanges, enqueuedTo_of_silent hsilent]
        exact htold
    · have hfresh := (numbered hr.moveReachable).not_mentions
        (Nat.lt_succ_self s.stats.totalConnections)
      have hnone := channelChanges_of_fresh hfresh
      refine ⟨?_, ?_⟩
      · rw [hclient, hchanges, hnone]
        rfl
      · rw [hclient, hchanges, hnone, enqueuedTo_of_silent hsilent, enqueuedTo,
          flatMap_eq_nil_of_not_mentions (fun e => Effect.enqueuedTo_of_not_mentions) hfresh]
        exact .nil
  · exact .takesTurn hs hr hturn hl

theorem channelOk (h : Reachable s) : ∀ j, (s.clients j).Live → ChannelOk s j := by
  refine Transition.Reachable.invariant (P := fun s => ∀ j, (s.clients j).Live → ChannelOk s j) ?_
    (fun _ _ hr hs hst j hl => ChannelOk.step hs hr hst hl) h
  rintro _ ⟨maxQueueBytes, heap, -, rfl⟩ j hl
  exact absurd hl Client.not_live_blank

/-! ## The first answer -/

/-- Whoever takes the first name is told so. -/
theorem Ending.greets (h : Ending s i frame t) (hl : (t.clients i).Live)
    (htype : frame.type = ClientMsgType.hello.toByte ∨ frame.type = ClientMsgType.nick.toByte)
    (hreg : (s.clients i).registered = false) (hreg' : (t.clients i).registered = true) :
    ∃ f, ((s.clients i).conn, f) ∈ (recorded s t).flatMap Effect.output := by
  have hne : ∀ {type : ClientMsgType}, type ≠ .hello → type ≠ .nick →
      frame.type ≠ type.toByte := by
    rintro type hhello hnick heq
    rcases htype with htype | htype
    · exact hhello (ClientMsgType.toByte_inj.mp (heq.symm.trans htype))
    · exact hnick (ClientMsgType.toByte_inj.mp (heq.symm.trans htype))
  have hconn : ∀ name, ((takeName s i name).clients i).conn = (s.clients i).conn := fun name => by
    rw [takeName, Server.setClient_self]
  cases h with
  | refused text =>
    rw [safeEnqueueText, enqueueOrDisconnect_clients_self hl] at hreg'
    exact absurd (hreg.symm.trans hreg') (by decide)
  | @registered name _ _ =>
    rw [output_of_live (s := s) (u := takeName s i name) rfl hl, hconn]
    exact ⟨_, List.mem_singleton_self _⟩
  | @renamed name _ _ =>
    have hsame := ((broadcastSystem_slot (s := safeEnqueueText (takeName s i name) i .ok
      (ascii "username changed")) (j := i) i (nickNotice (s.clients i) name)).2 (.inl rfl)).clients
    rw [hsame] at hl
    have hreply := output_of_live (s := s) (u := takeName s i name) rfl hl
    obtain ⟨es, htrace, -⟩ := Enqueues.enqueue (s := takeName s i name) i .ok
      (ascii "username changed")
    obtain ⟨es', htrace', -⟩ := Enqueues.broadcastSystem (s := safeEnqueueText (takeName s i name) i
      .ok (ascii "username changed")) i (nickNotice (s.clients i) name)
    have houtput := (flatMap_recorded (s := s) htrace).symm.trans hreply
    rw [flatMap_recorded (s := s) (htrace'.trans ((congrArg (· ++ es') htrace).trans
      (List.append_assoc ..))), List.flatMap_append, houtput, hconn]
    exact ⟨_, List.mem_cons_self⟩
  | joined htype' _ _ _ | switched htype' _ _ _ | left htype' _ _ _ | quit htype' =>
    exact absurd htype' (hne (by decide) (by decide))
  | said hsay => exact absurd hsay.say (hne (by decide) (by decide))
  | sentDm hdm _ | lostDm hdm _ => exact absurd hdm.dm (hne (by decide) (by decide))
  | queried _ _ hquery =>
    simp only [List.mem_cons, List.not_mem_nil, or_false] at hquery
    rcases hquery with hquery | hquery | hquery <;>
      exact absurd hquery (hne (by decide) (by decide))

/-- A registered client was told something, and what a client is told first says nothing about
channels. -/
structure GreetOk (s : Server) (j : Slot) : Prop where
  greeted : (s.clients j).registered = true → enqueuedTo (s.clients j).conn s.trace ≠ []
  first : ∀ f ∈ (enqueuedTo (s.clients j).conn s.trace).head?, Plain f

theorem Turn.channelChange_of_name (hreq : turn.request = some frame)
    (htype : frame.type = ClientMsgType.hello.toByte ∨ frame.type = ClientMsgType.nick.toByte) :
    turn.channelChange = none := by
  have hne : ∀ type ∈ [ClientMsgType.join, .switch, .leave], frame.type ≠ type.toByte := by
    rcases htype with htype | htype <;> rw [htype] <;> decide
  rw [Turn.channelChange, hreq, Option.bind_some]
  cases readName frame.payload cwChannelCap with
  | none => rfl
  | some name =>
    rw [Option.bind_some, if_neg, if_neg]
    · exact fun h => hne _ (by decide) h.1
    · rintro (h | h)
      · exact hne _ (by decide) h.1
      · exact hne _ (by decide) h.1

/-- The turn in which a client takes its first name. -/
theorem TakesTurn.greets (h : TakesTurn s t i turn) (hr : Reachable s) (hst : Step s t)
    (hl : (t.clients j).Live) (hreg : (s.clients j).registered = false)
    (hreg' : (t.clients j).registered = true) :
    turn.outputTo (t.clients j).conn ≠ [] ∧ changeFor (t.clients j).conn turn = none := by
  have hn := numbered hr.moveReachable
  obtain ⟨hlj, hconn⟩ := h.after j hl
  cases hst.name_cases hl with
  | accepted _ hfalse => exact absurd (hfalse.symm.trans hreg') (by decide)
  | same _ _ hname => exact absurd (hreg.symm.trans (hname.1.symm.trans hreg')) (by decide)
  | takes frame htakes _ _ =>
    -- the frame stands in front of the input buffer, so the turn is that of the client
    have hown : ∃ turn', TakesTurn s t j turn' := by
      rcases drainTurn_quiet_or_turn hlj with heq | hturn
      · rw [htakes.step, heq, hreg] at hreg'
        cases hreg'
      · rwa [htakes.step]
    obtain ⟨turn', hturn'⟩ := hown
    obtain rfl : turn = turn' := by
      have hturns := h.turns_eq.symm.trans hturn'.turns_eq
      exact (List.cons.inj (List.append_cancel_left hturns)).1
    obtain ⟨n, hhead⟩ := htakes.head
    have hreq : turn.request = some frame := by
      have hrequest := hturn'.request
      cases hreq : turn.request with
      | none =>
        rw [hreq, hhead] at hrequest
        cases hrequest
      | some f =>
        rw [hreq] at hrequest
        obtain ⟨n', hhead'⟩ := hrequest
        obtain ⟨rfl, -⟩ := StreamDecoder.Verdict.item.inj (hhead.symm.trans hhead')
        rfl
    obtain ⟨v, hserves⟩ := hturn'.serves hr hreq
    obtain ⟨inbuf, hclient⟩ := hserves.clients j
    rw [hclient] at hl hreg'
    obtain ⟨f, hf⟩ := hserves.ending.greets hl htakes.type hreg hreg'
    rw [hserves.output] at hf
    constructor
    · exact List.ne_nil_of_mem (mem_outputTo.mpr (hconn ▸ hf))
    · rw [changeFor, Turn.channelChange_of_name hreq htakes.type, ite_self]

theorem GreetOk.takesTurn (hs : GreetOk s j) (hr : Reachable s) (hst : Step s t)
    (h : TakesTurn s t i turn) (hl : (t.clients j).Live) : GreetOk t j := by
  obtain ⟨hlj, hconn⟩ := h.after j hl
  obtain ⟨hgreeted, hfirst⟩ := hs
  rw [← hconn] at hgreeted hfirst
  by_cases hold : enqueuedTo (t.clients j).conn s.trace = []
  · have hreg : (s.clients j).registered = false := by
      by_contra hne
      exact hgreeted (by simpa using hne) hold
    obtain ⟨-, hannounces⟩ := h.changes hr hl
    constructor
    · intro hreg'
      rw [h.enqueuedTo_eq, hold]
      exact (h.greets hr hst hl hreg hreg').1
    · intro f hf
      rw [h.enqueuedTo_eq, hold, List.nil_append] at hf
      have hmem := List.mem_of_mem_head? hf
      cases hreg' : (t.clients j).registered with
      | true =>
        rw [(h.greets hr hst hl hreg hreg').2] at hannounces
        exact hannounces f hmem
      | false =>
        intro hok
        have hinto : f ∈ enqueuedTo (t.clients j).conn t.trace := by
          rw [h.enqueuedTo_eq]
          exact List.mem_append_right _ hmem
        rw [registered_of_ok (.step hr hst) hl hinto hok] at hreg'
        cases hreg'
  · have hhead : (enqueuedTo (t.clients j).conn t.trace).head? =
        (enqueuedTo (t.clients j).conn s.trace).head? := by
      rw [h.enqueuedTo_eq, List.head?_append_of_ne_nil _ hold]
    refine ⟨fun _ hnil => hold ?_, fun f hf => hfirst f (hhead ▸ hf)⟩
    rw [h.enqueuedTo_eq] at hnil
    exact (List.append_eq_nil_iff.mp hnil).1

theorem GreetOk.step (hs : ∀ j, (s.clients j).Live → GreetOk s j) (hr : Reachable s)
    (h : Step s t) (hl : (t.clients j).Live) : GreetOk t j := by
  rcases h.quiet_or_turn with hsilent | ⟨i, turn, hturn⟩
  · rcases h.client_or_turn hl with
      ⟨i, turn, hturn⟩ | ⟨hlj, inbuf, out, queuedBytes, hclient⟩ | ⟨fd, hclient⟩
    · exact (hs j (hturn.after j hl).1).takesTurn hr h hturn hl
    · obtain ⟨hgreeted, hfirst⟩ := hs j hlj
      refine ⟨?_, ?_⟩
      · rw [hclient, enqueuedTo_of_silent hsilent]
        exact hgreeted
      · rw [hclient, enqueuedTo_of_silent hsilent]
        exact hfirst
    · have hfresh := (numbered hr.moveReachable).not_mentions
        (Nat.lt_succ_self s.stats.totalConnections)
      refine ⟨fun hreg => ?_, fun f hf => ?_⟩
      · rw [hclient] at hreg
        cases hreg
      · rw [hclient, enqueuedTo_of_silent hsilent, enqueuedTo,
          flatMap_eq_nil_of_not_mentions (fun e => Effect.enqueuedTo_of_not_mentions) hfresh] at hf
        cases hf
  · exact (hs j (hturn.after j hl).1).takesTurn hr h hturn hl

theorem greetOk (h : Reachable s) : ∀ j, (s.clients j).Live → GreetOk s j := by
  refine Transition.Reachable.invariant (P := fun s => ∀ j, (s.clients j).Live → GreetOk s j) ?_
    (fun _ _ hr hs hst j hl => GreetOk.step hs hr hst hl) h
  rintro _ ⟨maxQueueBytes, heap, -, rfl⟩ j hl
  exact absurd hl Client.not_live_blank

end Core
end ChannelWire
