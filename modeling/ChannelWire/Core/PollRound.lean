import ChannelWire.Core.Slots

/-!
# A round of the poll loop

`main` puts the descriptors of the live clients into `pfds`, calls `poll`, accepts, and then
looks each entry up again by its descriptor.  No connection is put into a slot after the accepts
(`Retains`), and the accepts touch no slot that was live: so the slot found for an entry is the
one the entry was made for, with the same connection, or none (`MadeFor`).

What is done at an entry is done for this slot (`ServeStep`): nothing is read from another client
or written to it, no frame of another is handled, and another is closed only when its queue has no
room for what the served client says (`ServedOnly`).

`recvCalls`, `sendCalls` and `entryCalls` are the functions of the source once more, with a list of
their system calls: each with its descriptor and with the number of the connection the slot holds
at the call.
-/

namespace ChannelWire
namespace Core

open LinkedQueue Relation

/-! ## System calls -/

/-- The descriptor and the connection of a slot. -/
def Client.endpoint (c : Client) : ℤ × ℕ := (c.fd, c.conn)

/-- `read_from_client` with its calls of `recv` and `close`, the last of which may not have returned
yet. -/
def recvCalls (s : Server) (i : Slot) : List RecvResult → List (ℤ × ℕ) × Server
  | [] => (if cwInbufCap - (s.clients i).inbuf.length = 0 then [] else [(s.clients i).endpoint], s)
  | r :: rs =>
    let free := cwInbufCap - (s.clients i).inbuf.length
    let close (calls : List (ℤ × ℕ)) (reason : Reason) :=
      (calls ++ [(s.clients i).endpoint], disconnectClient s i reason)
    if free = 0 then close [] .inputBufferFull
    else
      match r with
      | .data bytes =>
        match drainInput (recvChunk s i (bytes.take free)) i with
        | (true, t) => ((s.clients i).endpoint :: (recvCalls t i rs).1, (recvCalls t i rs).2)
        | (false, t) => ([(s.clients i).endpoint], t)
      | .eof => close [(s.clients i).endpoint] .peerClosed
      | .again => ([(s.clients i).endpoint], s)
      | .intr => ((s.clients i).endpoint :: (recvCalls s i rs).1, (recvCalls s i rs).2)
      | .failed => close [(s.clients i).endpoint] .recvFailed

/-- `write_to_client` with its calls of `send` and `close`, the last of which may not have returned
yet. -/
def sendCalls (s : Server) (i : Slot) : List SendResult → List (ℤ × ℕ) × Server
  | [] => (if (s.clients i).out.toList = [] then [] else [(s.clients i).endpoint], s)
  | r :: rs =>
    let close := ([(s.clients i).endpoint, (s.clients i).endpoint],
      disconnectClient s i .sendFailed)
    match (s.clients i).out.toList with
    | [] => ([], s)
    | frame :: _ =>
      match r with
      | .took n =>
        if min n (frame.len - frame.sent) = 0 then close
        else
          let rest := sendCalls (takeSent s i (min n (frame.len - frame.sent))) i rs
          ((s.clients i).endpoint :: rest.1, rest.2)
      | .intr => ((s.clients i).endpoint :: (sendCalls s i rs).1, (sendCalls s i rs).2)
      | .again => ([(s.clients i).endpoint], s)
      | .failed => close

/-- The body of the loop over `pfds` with its calls. -/
def entryCalls (s : Server) (entry : ℤ × PollEvents) : List (ℤ × ℕ) × Server :=
  match findClientByFd s entry.1 with
  | none => ([], s)
  | some i =>
    if entry.2.error then ([(s.clients i).endpoint], disconnectClient s i .pollError)
    else
      let read := if entry.2.readable then recvCalls s i entry.2.recvs else ([], s)
      if (read.2.clients i).Live ∧ entry.2.writable = true then
        (read.1 ++ (sendCalls read.2 i entry.2.sends).1, (sendCalls read.2 i entry.2.sends).2)
      else read

theorem recvCalls_snd (s : Server) (i : Slot) (rs : List RecvResult) :
    (recvCalls s i rs).2 = readFromClient s i rs := by
  induction rs generalizing s with
  | nil => rfl
  | cons r rs ih =>
    simp only [recvCalls, readFromClient]
    split_ifs with hfree
    · rfl
    · cases r with
      | data bytes =>
        simp only
        rcases drainInput (recvChunk s i _) i with ⟨stays, t⟩
        cases stays with
        | true => exact ih t
        | false => rfl
      | intr => exact ih s
      | eof | again | failed => rfl

theorem sendCalls_snd (s : Server) (i : Slot) (rs : List SendResult) :
    (sendCalls s i rs).2 = writeToClient s i rs := by
  induction rs generalizing s with
  | nil => rfl
  | cons r rs ih =>
    simp only [sendCalls, writeToClient]
    cases (s.clients i).out.toList with
    | nil => rfl
    | cons frame rest =>
      cases r with
      | took n =>
        simp only
        split_ifs with hn
        · rfl
        · exact ih _
      | intr => exact ih s
      | again | failed => rfl

theorem entryCalls_snd (s : Server) (entry : ℤ × PollEvents) :
    (entryCalls s entry).2 = serveEntry s entry := by
  unfold entryCalls serveEntry
  cases findClientByFd s entry.1 with
  | none => rfl
  | some i =>
    have hread : (if entry.2.readable then recvCalls s i entry.2.recvs else ([], s)).2 =
        if entry.2.readable then readFromClient s i entry.2.recvs else s := by
      split_ifs
      · exact recvCalls_snd ..
      · rfl
    simp only
    rw [apply_ite Prod.snd, apply_ite Prod.snd, hread]
    simp only [sendCalls_snd]

/-! ## No connection is put into a slot -/

/-- The live slots keep their connections, or these are closed. -/
structure Retains (s t : Server) : Prop where
  same : ∀ j, (t.clients j).Live →
    (s.clients j).Live ∧ (t.clients j).endpoint = (s.clients j).endpoint
  gone : ∀ j, (s.clients j).Live → ¬ (t.clients j).Live →
    ∃ reason, .closed (s.clients j).conn reason ∈ t.trace
  trace : s.trace <+: t.trace

namespace Retains

variable {s t u : Server}

theorem refl (s : Server) : Retains s s :=
  ⟨fun _ hj => ⟨hj, rfl⟩, fun _ hj hdead => absurd hj hdead, List.prefix_rfl⟩

theorem trans (h : Retains s t) (h' : Retains t u) : Retains s u := by
  refine ⟨fun j hj => ?_, fun j hj hdead => ?_, h.trace.trans h'.trace⟩
  · obtain ⟨hjt, heq'⟩ := h'.same j hj
    obtain ⟨hjs, heq⟩ := h.same j hjt
    exact ⟨hjs, heq'.trans heq⟩
  · by_cases hjt : (t.clients j).Live
    · obtain ⟨reason, hmem⟩ := h'.gone j hjt hdead
      rw [show (t.clients j).conn = (s.clients j).conn from congrArg Prod.snd (h.same j hjt).2] at hmem
      exact ⟨reason, hmem⟩
    · obtain ⟨reason, hmem⟩ := h.gone j hj hjt
      exact ⟨reason, h'.trace.subset hmem⟩

theorem of_run (h : ReflTransGen Retains s t) : Retains s t := by
  induction h with
  | refl => exact .refl s
  | tail _ hst ih => exact ih.trans hst

end Retains

/-- A move that opens no connection. -/
theorem Move.retains {s t : Server} (h : Move s t)
    (htotal : t.stats.totalConnections = s.stats.totalConnections) : Retains s t := by
  cases h.slotChange with
  | keep es hclients _ _ htrace _ =>
    have hlive : ∀ j, (t.clients j).Live ↔ (s.clients j).Live := fun j => by
      rw [Client.Live, Client.Live, (hclients j).1]
    refine ⟨fun j hj => ⟨(hlive j).mp hj, Prod.ext (hclients j).1 (hclients j).2.1⟩,
      fun j hj hdead => absurd ((hlive j).mpr hj) hdead, htrace ▸ List.prefix_append _ _⟩
  | close i reason es _ hclients _ _ htrace _ =>
    have hother : ∀ j, j ≠ i → t.clients j = s.clients j := fun j hj => by
      rw [hclients, Function.update_of_ne hj]
    refine ⟨fun j hj => ?_, fun j hj hdead => ?_, htrace ▸ List.prefix_append _ _⟩
    · rcases eq_or_ne j i with rfl | hne
      · rw [hclients, Function.update_self] at hj
        exact absurd hj (Client.not_live_reset _)
      · rw [hother j hne] at hj ⊢
        exact ⟨hj, rfl⟩
    · rcases eq_or_ne j i with rfl | hne
      · refine ⟨reason, ?_⟩
        rw [htrace, ← List.append_assoc]
        exact List.mem_concat_self
      · rw [hother j hne] at hdead
        exact absurd hj hdead
  | occupy slot fd _ _ ht =>
    subst ht
    exact absurd htotal (Nat.succ_ne_self _)

theorem Action.retains {r : Request} {s t : Server} (h : Action r s t) : Retains s t :=
  Move.retains (.act h) h.totalConnections

theorem Actions.retains {r : Request} {s t : Server} (h : Actions r s t) : Retains s t :=
  .of_run (ReflTransGen.mono (fun _ _ => Action.retains) _ _ h)

theorem drainTurn_retains {s : Server} {i : Slot} (hl : (s.clients i).Live) :
    Retains s (drainTurn s i).2 := by
  rw [drainTurn_eq]
  split
  · exact .refl s
  · have hcount : Action (request s i 0 []) s (s.setStats
        { s.stats with malformedFrames := s.stats.malformedFrames + 1 }) := .count rfl rfl
    have hmalformed := (Move.malformed (s := s.setStats
      { s.stats with malformedFrames := s.stats.malformedFrames + 1 }) (i := i) hl).retains rfl
    exact (hcount.retains.trans hmalformed).trans (rejectHeader_actions hl).retains
  · next frame n _ =>
    have hhandled : Retains s (s.emit (.handled (s.clients i).conn frame)) :=
      (Move.handle hl).retains rfl
    have hserved := hhandled.trans (handleFrame_actions
      (s := s.emit (.handled (s.clients i).conn frame)) frame.type frame.payload hl).retains
    unfold serveFrame
    simp only
    split_ifs with hlive
    · exact hserved.trans ((Move.shift hlive).retains rfl)
    · exact hserved

theorem ServeStep.retains {s t : Server} {i : Slot} (h : ServeStep i s t) : Retains s t := by
  cases h with
  | recv hl hne hcap => exact (Move.receive hl hne hcap).retains rfl
  | drain hl => exact drainTurn_retains hl
  | send hl hout hn hle =>
    exact (Move.send hl hout hn hle).retains (by rw [takeSent_stats])
  | disconnect hl _ => exact (Move.disconnect hl).retains (disconnectClient_totalConnections ..)

theorem retains_of_serves {s t : Server} {i : Slot} (h : ReflTransGen (ServeStep i) s t) : Retains s t :=
  .of_run (ReflTransGen.mono (fun _ _ => ServeStep.retains) _ _ h)

/-! ## What is done for one slot -/

/-- The client goes on, with frames put behind those of its queue. -/
def Enqueued (c d : Client) : Prop :=
  ∃ out queuedBytes, d = { c with out := out, queuedBytes := queuedBytes } ∧
    c.out.toList <+: out.toList

/-- The effect stands for something that is done for a connection other than `k`: bytes are read
from it or written to it, a frame of it is handled, or it is closed though its queue had room. -/
def Effect.ServesOther (k : ℕ) : Effect → Prop
  | .received c _ | .handled c _ | .malformed c | .said c _ _ | .sent c _ | .accepted c => c ≠ k
  | .closed c reason => c ≠ k ∧ reason ≠ .queueOverflow
  | .enqueued _ _ | .refused _ _ => False

/-- If slot `i` holds a connection, it is `k`. -/
def Holds (i : Slot) (k : ℕ) (s : Server) : Prop := (s.clients i).Live → (s.clients i).conn = k

/-- What was done was done for the slot `i` with the connection `k`. -/
structure ServedOnly (i : Slot) (k : ℕ) (s t : Server) : Prop where
  others : ∀ j, j ≠ i → (t.clients j).Live → Enqueued (s.clients j) (t.clients j)
  silent : Silent (Effect.ServesOther k) s t
  holds : Holds i k s → Holds i k t

theorem Enqueued.refl (c : Client) : Enqueued c c := ⟨c.out, c.queuedBytes, rfl, List.prefix_rfl⟩

theorem Enqueued.trans {c d e : Client} (h : Enqueued c d) (h' : Enqueued d e) :
    Enqueued c e := by
  obtain ⟨out, queuedBytes, rfl, hout⟩ := h
  obtain ⟨out', queuedBytes', rfl, hout'⟩ := h'
  exact ⟨out', queuedBytes', rfl, hout.trans hout'⟩

theorem Enqueued.live {c d : Client} (h : Enqueued c d) (hd : d.Live) : c.Live := by
  obtain ⟨out, queuedBytes, rfl, -⟩ := h
  exact hd

namespace ServedOnly

variable {s t u : Server} {i j : Slot} {k : ℕ}

theorem refl (s : Server) : ServedOnly i k s s :=
  ⟨fun _ _ _ => .refl _, .of_eq rfl, id⟩

theorem trans (h : ServedOnly i k s t) (h' : ServedOnly i k t u) : ServedOnly i k s u := by
  refine ⟨fun j hne hj => ?_, h.silent.trans h'.silent, h'.holds ∘ h.holds⟩
  have hlast := h'.others j hne hj
  exact (h.others j hne (hlast.live hj)).trans hlast

/-- A step lemma makes a run lemma. -/
theorem of_run {R : Server → Server → Prop} (hs : Holds i k s) (h : ReflTransGen R s t)
    (hR : ∀ s t, Holds i k s → R s t → ServedOnly i k s t) : ServedOnly i k s t := by
  induction h with
  | refl => exact .refl s
  | tail _ hst ih => exact ih.trans (hR _ _ (ih.holds hs) hst)

/-- The clients stay as they are. -/
theorem of_clients (hclients : t.clients = s.clients)
    (hsilent : Silent (Effect.ServesOther k) s t) : ServedOnly i k s t := by
  refine ⟨fun j _ _ => ?_, hsilent, fun h hl => ?_⟩
  · rw [hclients]
    exact .refl _
  · rw [hclients] at hl ⊢
    exact h hl

/-- The served client changes, and keeps its connection. -/
theorem setClient {c : Client} (hclients : t.clients = Function.update s.clients i c)
    (hl : (s.clients i).Live) (hconn : c.conn = (s.clients i).conn)
    (hsilent : Silent (Effect.ServesOther k) s t) : ServedOnly i k s t := by
  refine ⟨fun j hne _ => ?_, hsilent, fun h _ => ?_⟩
  · rw [hclients, Function.update_of_ne hne]
    exact .refl _
  · rw [hclients, Function.update_self, hconn]
    exact h hl

/-- A frame is put into the queue of some client. -/
theorem push {type : ServerMsgType} {payload : Bytes} :
    ServedOnly i k s (pushFrame s j type payload) := by
  have hself : Enqueued (s.clients j) ((pushFrame s j type payload).clients j) := by
    rw [pushFrame_clients, Function.update_self]
    refine ⟨_, _, rfl, ?_⟩
    rw [Queue.toList_push]
    exact List.prefix_append ..
  have hall : ∀ j', Enqueued (s.clients j') ((pushFrame s j type payload).clients j') := by
    intro j'
    rcases eq_or_ne j' j with rfl | hne
    · exact hself
    · rw [pushFrame_clients, Function.update_of_ne hne]
      exact .refl _
  refine ⟨fun j' _ _ => hall j', .concat (pushFrame_trace ..) id, fun h hl => ?_⟩
  obtain ⟨out, queuedBytes, heq, -⟩ := hall i
  rw [heq] at hl ⊢
  exact h hl

/-- A client is closed: the served one, or one without room. -/
theorem disconnect {reason : Reason} (hl : (s.clients j).Live)
    (hk : j = i ∧ Holds i k s ∨ reason = .queueOverflow) :
    ServedOnly i k s (disconnectClient s j reason) := by
  refine ⟨fun j' _ hj' => ?_, .concat (disconnectClient_trace _ _ _ hl) ?_, fun h hi => ?_⟩
  · rw [disconnectClient_clients] at hj' ⊢
    rcases eq_or_ne j' j with rfl | hne
    · rw [Function.update_self] at hj'
      exact absurd hj' (Client.not_live_reset _)
    · rw [Function.update_of_ne hne]
      exact .refl _
  · rintro ⟨hother, hroom⟩
    rcases hk with ⟨rfl, hholds⟩ | rfl
    · exact hother (hholds hl)
    · exact hroom rfl
  · rw [disconnectClient_clients] at hi ⊢
    rcases eq_or_ne i j with rfl | hne
    · rw [Function.update_self] at hi
      exact absurd hi (Client.not_live_reset _)
    · rw [Function.update_of_ne hne] at hi ⊢
      exact h hi

end ServedOnly

theorem Action.servedOnly {r : Request} {s t : Server} {k : ℕ} (h : Action r s t)
    (hs : Holds r.slot k s) : ServedOnly r.slot k s t := by
  cases h with
  | @push i type payload heap _ _ _ _ =>
    exact ServedOnly.trans (t := s.setHeap heap) (.of_clients rfl (.of_eq rfl)) .push
  | @drop i type payload heap _ hl =>
    have hrefused : ServedOnly r.slot k s
        ((s.setHeap heap).emit (.refused (s.clients i).conn ⟨type.toByte, payload⟩)) :=
      .of_clients rfl (.concat rfl id)
    have hcount : ∀ u : Server, ServedOnly r.slot k u
        (u.setStats { u.stats with queueDisconnects := u.stats.queueDisconnects + 1 }) := fun u =>
      .of_clients rfl (.of_eq rfl)
    exact (hrefused.trans (hcount _)).trans (.disconnect hl (.inr rfl))
  | rename _ hl _ _ => exact .setClient rfl hl rfl (.of_eq rfl)
  | openChannel _ _ _ => exact .of_clients rfl (.of_eq rfl)
  | join hl _ _ _ => exact .setClient rfl hl rfl (.of_eq rfl)
  | switch hl _ _ _ => exact .setClient rfl hl rfl (.of_eq rfl)
  | leave hl _ => exact .setClient rfl hl rfl (.of_eq rfl)
  | count _ _ => exact .of_clients rfl (.of_eq rfl)
  | quit hl hwhy =>
    exact .disconnect hl (hwhy.imp_left fun ⟨hself, _⟩ => ⟨hself, hs⟩)
  | announce _ _ _ _ hl _ => exact .of_clients rfl (.concat rfl fun hne => hne (hs hl))

theorem Actions.servedOnly {r : Request} {s t : Server} {k : ℕ} (h : Actions r s t)
    (hs : Holds r.slot k s) : ServedOnly r.slot k s t :=
  .of_run hs h fun _ _ hu hst => hst.servedOnly hu

/-- A turn of `drain_input` is done for the client whose buffer it is. -/
theorem drainTurn_servedOnly {s : Server} {i : Slot} {k : ℕ} (hl : (s.clients i).Live)
    (hs : Holds i k s) : ServedOnly i k s (drainTurn s i).2 := by
  rw [drainTurn_eq]
  split
  · exact .refl s
  · have hmarked : ServedOnly i k s ((s.setStats
        { s.stats with malformedFrames := s.stats.malformedFrames + 1 }).emit
          (.malformed (s.clients i).conn)) :=
      .of_clients rfl (.concat rfl fun hne => hne (hs hl))
    exact hmarked.trans ((rejectHeader_actions hl).servedOnly (hmarked.holds hs))
  · next frame n _ =>
    have hmarked : ServedOnly i k s (s.emit (.handled (s.clients i).conn frame)) :=
      .of_clients rfl (.concat rfl fun hne => hne (hs hl))
    have hserved := hmarked.trans ((handleFrame_actions
      (s := s.emit (.handled (s.clients i).conn frame)) frame.type frame.payload hl).servedOnly
        (hmarked.holds hs))
    unfold serveFrame
    simp only
    split_ifs with hlive
    · exact hserved.trans (.setClient rfl hlive rfl (.of_eq rfl))
    · exact hserved

theorem ServeStep.servedOnly {s t : Server} {i : Slot} {k : ℕ} (h : ServeStep i s t)
    (hs : Holds i k s) : ServedOnly i k s t := by
  cases h with
  | recv hl _ _ => exact .setClient rfl hl rfl (.concat rfl fun hne => hne (hs hl))
  | drain hl => exact drainTurn_servedOnly hl hs
  | send hl hout _ _ =>
    obtain ⟨out, queuedBytes, hclients, -⟩ := takeSent_clients hout
    exact .setClient hclients hl rfl (.concat (takeSent_trace hout) fun hne => hne (hs hl))
  | disconnect hl _ => exact .disconnect hl (.inl ⟨rfl, hs⟩)

theorem findClientByFd_eq_some {s : Server} {fd : ℤ} {i : Slot}
    (h : findClientByFd s fd = some i) : (s.clients i).fd = fd := by
  have hp := List.find?_some (p := fun i => decide ((s.clients i).fd = fd)) h
  exact of_decide_eq_true hp

/-- A descriptor that is not negative finds a live client. -/
theorem live_of_findClientByFd {s : Server} {fd : ℤ} {i : Slot} (hfd : 0 ≤ fd)
    (h : findClientByFd s fd = some i) : (s.clients i).Live := by
  rw [Client.Live, findClientByFd_eq_some h]
  exact hfd

/-- What is done at an entry is done for the slot that is found for its descriptor. -/
theorem serveEntry_steps {s : Server} {entry : ℤ × PollEvents} {i : Slot} (hfd : 0 ≤ entry.1)
    (hrs : .data [] ∉ entry.2.recvs) (hfind : findClientByFd s entry.1 = some i) :
    ReflTransGen (ServeStep i) s (serveEntry s entry) := by
  have hl := live_of_findClientByFd hfd hfind
  unfold serveEntry
  rw [hfind]
  simp only
  split_ifs with herr hr hw hw
  · exact .single (.disconnect hl (by simp))
  · exact (readFromClient_steps hl hrs).trans (writeToClient_steps hw.1)
  · exact readFromClient_steps hl hrs
  · exact writeToClient_steps hw.1
  · exact .refl

/-! ## The entries -/

theorem recvCalls_eq {rs : List RecvResult} {s : Server} {i : Slot} (hl : (s.clients i).Live)
    (hrs : .data [] ∉ rs) : ∀ c ∈ (recvCalls s i rs).1, c = (s.clients i).endpoint := by
  induction rs generalizing s with
  | nil =>
    intro c hc
    simp only [recvCalls] at hc
    split_ifs at hc
    · exact absurd hc List.not_mem_nil
    · exact List.mem_singleton.mp hc
  | cons r rs ih =>
    have hrs' : RecvResult.data [] ∉ rs := fun h => hrs (List.mem_cons_of_mem _ h)
    intro c hc
    simp only [recvCalls] at hc
    split_ifs at hc with hfree
    · exact List.mem_singleton.mp hc
    cases r with
    | data bytes =>
      have hread : ReflTransGen (ServeStep i) s (readFromClient s i [.data bytes]) :=
        readFromClient_steps hl (fun h => hrs (List.mem_cons.mpr (.inl (List.mem_singleton.mp h))))
      simp only [readFromClient, if_neg hfree] at hread
      simp only at hc
      cases hd : drainInput (recvChunk s i
          (bytes.take (cwInbufCap - (s.clients i).inbuf.length))) i with
      | mk stays t =>
        rw [hd] at hc hread
        cases stays with
        | false => exact List.mem_singleton.mp hc
        | true =>
          rcases List.mem_cons.mp hc with rfl | hc
          · rfl
          have hlive : (t.clients i).Live := by
            have hstay := live_of_drainInput
              (live_recvChunk hl (bytes.take (cwInbufCap - (s.clients i).inbuf.length)))
            rw [hd] at hstay
            exact hstay rfl
          rw [ih hlive hrs' c hc]
          exact ((retains_of_serves hread).same i hlive).2
    | intr =>
      rcases List.mem_cons.mp hc with rfl | hc
      · rfl
      · exact ih hl hrs' c hc
    | eof | failed => exact List.eq_of_mem_replicate (n := 2) hc
    | again => exact List.mem_singleton.mp hc

theorem sendCalls_eq {rs : List SendResult} {s : Server} {i : Slot} (hl : (s.clients i).Live) :
    ∀ c ∈ (sendCalls s i rs).1, c = (s.clients i).endpoint := by
  induction rs generalizing s with
  | nil =>
    intro c hc
    simp only [sendCalls] at hc
    split_ifs at hc
    · exact absurd hc List.not_mem_nil
    · exact List.mem_singleton.mp hc
  | cons r rs ih =>
    intro c hc
    simp only [sendCalls] at hc
    cases hout : (s.clients i).out.toList with
    | nil =>
      rw [hout] at hc
      exact absurd hc List.not_mem_nil
    | cons frame rest =>
      rw [hout] at hc
      cases r with
      | took n =>
        simp only at hc
        split_ifs at hc with hn
        · exact List.eq_of_mem_replicate (n := 2) hc
        · rcases List.mem_cons.mp hc with rfl | hc
          · rfl
          have hlive := live_takeSent (n := min n (frame.len - frame.sent)) hl
          have hsend : ServeStep i s (takeSent s i (min n (frame.len - frame.sent))) :=
            .send hl hout (Nat.pos_of_ne_zero hn) (Nat.min_le_right ..)
          rw [ih hlive c hc]
          exact (hsend.retains.same i hlive).2
      | intr =>
        rcases List.mem_cons.mp hc with rfl | hc
        · rfl
        · exact ih hl c hc
      | again => exact List.mem_singleton.mp hc
      | failed => exact List.eq_of_mem_replicate (n := 2) hc

theorem entryCalls_eq {s : Server} {entry : ℤ × PollEvents} {i : Slot} (hfd : 0 ≤ entry.1)
    (hrs : .data [] ∉ entry.2.recvs) (hfind : findClientByFd s entry.1 = some i) :
    ∀ c ∈ (entryCalls s entry).1, c = (s.clients i).endpoint := by
  have hl := live_of_findClientByFd hfd hfind
  intro c hc
  unfold entryCalls at hc
  rw [hfind] at hc
  simp only at hc
  split_ifs at hc with herr hread hwrite hwrite
  · exact List.mem_singleton.mp hc
  · rcases List.mem_append.mp hc with hc | hc
    · exact recvCalls_eq hl hrs c hc
    · rw [sendCalls_eq hwrite.1 c hc]
      have hkept := retains_of_serves (readFromClient_steps hl hrs)
      rw [← recvCalls_snd] at hkept
      exact (hkept.same i hwrite.1).2
  · exact recvCalls_eq hl hrs c hc
  · exact sendCalls_eq hl c (List.nil_append _ ▸ hc)
  · exact absurd hc List.not_mem_nil

theorem serveEntry_retains {s : Server} {entry : ℤ × PollEvents} (hfd : 0 ≤ entry.1)
    (hrs : .data [] ∉ entry.2.recvs) : Retains s (serveEntry s entry) := by
  cases hfind : findClientByFd s entry.1 with
  | none =>
    rw [serveEntry, hfind]
    exact .refl s
  | some i => exact retains_of_serves (serveEntry_steps hfd hrs hfind)

/-- The accepts touch no slot that holds a connection. -/
theorem acceptClients_of_live {rs : List AcceptResult} {s : Server} {i : Slot}
    (hl : (s.clients i).Live) : (acceptClients s rs).clients i = s.clients i := by
  induction rs generalizing s with
  | nil => rfl
  | cons r rs ih =>
    cases r with
    | conn fd nonblocking =>
      have hsame : (acceptConnection s fd nonblocking).clients i = s.clients i := by
        unfold acceptConnection
        cases hfree : (freeSlot s).filter fun _ => nonblocking with
        | none => rfl
        | some slot =>
          have hslot := List.find?_some (Option.filter_eq_some_iff.mp hfree).1
          refine Function.update_of_ne ?_ ..
          rintro rfl
          exact of_decide_eq_true hslot hl
      rw [acceptClients, ih (by rwa [hsame]), hsame]
    | intr => exact ih hl
    | again | failed => rfl

/-! ## The round -/

/-- The state in which the loop over `pfds` looks at entry `n`. -/
def roundState (s : Server) (accepts : List AcceptResult) (events : List PollEvents) (n : ℕ) :
    Server :=
  (((pollSet s).zip events).take n).foldl serveEntry (acceptClients s accepts)

theorem pollRound_eq_roundState (s : Server) (accepts : List AcceptResult)
    (events : List PollEvents) :
    pollRound s accepts events = roundState s accepts events ((pollSet s).zip events).length := by
  rw [roundState, List.take_length]
  rfl

theorem roundState_succ {s : Server} {accepts : List AcceptResult} {events : List PollEvents}
    {n : ℕ} {entry : ℤ × PollEvents} (h : ((pollSet s).zip events)[n]? = some entry) :
    roundState s accepts events (n + 1) = serveEntry (roundState s accepts events n) entry := by
  unfold roundState
  rw [List.take_add_one, h, List.foldl_append]
  rfl

/-- An entry was made for a live client. -/
theorem exists_slot_of_entry {s : Server} {events : List PollEvents} {entry : ℤ × PollEvents}
    (h : entry ∈ (pollSet s).zip events) :
    ∃ i, (s.clients i).Live ∧ (s.clients i).fd = entry.1 ∧ entry.2 ∈ events := by
  obtain ⟨hfd, he⟩ := List.of_mem_zip (a := entry.1) (b := entry.2) h
  obtain ⟨i, hi, hname⟩ := List.mem_map.mp hfd
  exact ⟨i, of_decide_eq_true (List.mem_filter.mp hi).2, hname, he⟩

variable {s : Server} {accepts : List AcceptResult} {events : List PollEvents}

theorem roundState_retains (hevents : ∀ e ∈ events, .data [] ∉ e.recvs) (n : ℕ) :
    Retains (acceptClients s accepts) (roundState s accepts events n) := by
  have hentries : ∀ entry ∈ ((pollSet s).zip events).take n,
      0 ≤ entry.1 ∧ .data [] ∉ entry.2.recvs := by
    intro entry hmem
    obtain ⟨i, hl, hfd, he⟩ := exists_slot_of_entry (List.mem_of_mem_take hmem)
    exact ⟨hfd ▸ hl, hevents _ he⟩
  unfold roundState
  generalize ((pollSet s).zip events).take n = entries at hentries
  generalize acceptClients s accepts = u
  induction entries generalizing u with
  | nil => exact .refl u
  | cons entry entries ih =>
    obtain ⟨hfd, hrecvs⟩ := hentries entry List.mem_cons_self
    exact (serveEntry_retains hfd hrecvs).trans
      (ih (fun e he => hentries e (List.mem_cons_of_mem _ he)) _)

/-- Entry `n` of `pfds` was made for the client in slot `i`: whatever happens in the round before the
entry is looked at, the slot holds the same connection or none, and no other slot has its
descriptor. -/
structure MadeFor (s : Server) (accepts : List AcceptResult) (events : List PollEvents) (n : ℕ)
    (entry : ℤ × PollEvents) (i : Slot) : Prop where
  live : (s.clients i).Live
  fd : (s.clients i).fd = entry.1
  recvs : .data [] ∉ entry.2.recvs
  same : ((roundState s accepts events n).clients i).Live →
    ((roundState s accepts events n).clients i).endpoint = (s.clients i).endpoint
  gone : ¬ ((roundState s accepts events n).clients i).Live →
    ∃ reason, .closed (s.clients i).conn reason ∈ (roundState s accepts events n).trace
  found : ∀ j, findClientByFd (roundState s accepts events n) entry.1 = some j → j = i

theorem exists_madeFor (h : CallReachable s) (haccepts : FreshAccepts s accepts)
    (hevents : ∀ e ∈ events, .data [] ∉ e.recvs) {n : ℕ} {entry : ℤ × PollEvents}
    (hentry : ((pollSet s).zip events)[n]? = some entry) :
    ∃ i, MadeFor s accepts events n entry i := by
  obtain ⟨i, hl, hfd, he⟩ := exists_slot_of_entry (List.mem_of_getElem? hentry)
  have hreach : CallReachable (acceptClients s accepts) := h.trans (acceptClients_calls haccepts)
  have hslots := slotsOk hreach.reachable.moveReachable
  have hkept : (acceptClients s accepts).clients i = s.clients i := acceptClients_of_live hl
  have hretains : Retains (acceptClients s accepts) (roundState s accepts events n) :=
    roundState_retains hevents n
  refine ⟨i, hl, hfd, hevents _ he, fun hlive => ?_, fun hgone => ?_, fun j hj => ?_⟩
  · rw [(hretains.same i hlive).2, hkept]
  · obtain ⟨reason, hclosed⟩ := hretains.gone i (by rwa [hkept]) hgone
    rw [hkept] at hclosed
    exact ⟨reason, hclosed⟩
  · obtain ⟨hlive, heq⟩ := hretains.same j (live_of_findClientByFd (hfd ▸ hl) hj)
    refine hslots.fds j i hlive (by rwa [hkept]) ?_
    rw [hkept, hfd, ← findClientByFd_eq_some hj]
    exact (congrArg Prod.fst heq).symm

namespace MadeFor

variable {n : ℕ} {entry : ℤ × PollEvents} {i : Slot}

theorem nonneg (h : MadeFor s accepts events n entry i) : 0 ≤ entry.1 := h.fd ▸ h.live

theorem findClientByFd_eq (h : MadeFor s accepts events n entry i)
    (hlive : ((roundState s accepts events n).clients i).Live) :
    findClientByFd (roundState s accepts events n) entry.1 = some i := by
  have hsome : (findClientByFd (roundState s accepts events n) entry.1).isSome = true := by
    refine List.find?_isSome.mpr ⟨i, mem_slots i, decide_eq_true ?_⟩
    rw [← h.fd]
    exact congrArg Prod.fst (h.same hlive)
  obtain ⟨j, hj⟩ := Option.isSome_iff_exists.mp hsome
  obtain rfl := h.found j hj
  exact hj

theorem findClientByFd_eq_none (h : MadeFor s accepts events n entry i)
    (hgone : ¬ ((roundState s accepts events n).clients i).Live) :
    findClientByFd (roundState s accepts events n) entry.1 = none := by
  rw [Option.eq_none_iff_forall_ne_some]
  intro j hj
  obtain rfl := h.found j hj
  exact hgone (live_of_findClientByFd h.nonneg hj)

/-- What the entry does are steps for this client. -/
theorem steps (h : MadeFor s accepts events n entry i) :
    ReflTransGen (ServeStep i) (roundState s accepts events n)
      (serveEntry (roundState s accepts events n) entry) := by
  cases hfind : findClientByFd (roundState s accepts events n) entry.1 with
  | none => rw [serveEntry, hfind]
  | some j =>
    obtain rfl := h.found j hfind
    exact serveEntry_steps h.nonneg h.recvs hfind

/-- So are its calls. -/
theorem calls (h : MadeFor s accepts events n entry i) {c : ℤ × ℕ}
    (hc : c ∈ (entryCalls (roundState s accepts events n) entry).1) :
    c = (s.clients i).endpoint := by
  cases hfind : findClientByFd (roundState s accepts events n) entry.1 with
  | none =>
    unfold entryCalls at hc
    rw [hfind] at hc
    exact absurd hc List.not_mem_nil
  | some j =>
    obtain rfl := h.found j hfind
    exact (entryCalls_eq h.nonneg h.recvs hfind c hc).trans
      (h.same (live_of_findClientByFd h.nonneg hfind))

end MadeFor

/-- **Poll events reach the connection they were reported for.**  In every round of the main loop,
with any events, any answers of `accept`, `recv` and `send` and a kernel that may give a closed
descriptor to a later accept, entry `n` of `pfds` was made for one connection.  When the loop
looks at the entry, the slot found for its descriptor is the one that still holds this connection,
or there is none, the connection was closed in this round, and the entry changes nothing.

All that the entry changes or records is done for this connection: it is a sequence of steps for
its slot, nothing is read from another connection or written to it, no frame of another is handled,
and another client keeps all but its queue, behind which frames may be put, or is closed because it
has no room for them.  Every `close`, `recv` and `send` the entry leads to has the descriptor of
this connection, which is not negative; and no connection that was accepted in the round is this
one. -/
theorem poll_events_reach_their_connection (h : CallReachable s)
    (haccepts : FreshAccepts s accepts) (hevents : ∀ e ∈ events, .data [] ∉ e.recvs) {n : ℕ}
    {entry : ℤ × PollEvents} (hentry : ((pollSet s).zip events)[n]? = some entry) :
    (entryCalls (roundState s accepts events n) entry).2 = roundState s accepts events (n + 1) ∧
    roundState s accepts events (n + 1) = serveEntry (roundState s accepts events n) entry ∧
    ∃ i, (s.clients i).Live ∧ (s.clients i).fd = entry.1 ∧
      (findClientByFd (roundState s accepts events n) entry.1 = some i ∧
          ((roundState s accepts events n).clients i).endpoint = (s.clients i).endpoint ∨
        findClientByFd (roundState s accepts events n) entry.1 = none ∧
          roundState s accepts events (n + 1) = roundState s accepts events n ∧
          ∃ reason, .closed (s.clients i).conn reason ∈ (roundState s accepts events n).trace ∧
            .closed (s.clients i).conn reason ∉ s.trace) ∧
      ReflTransGen (ServeStep i) (roundState s accepts events n)
        (roundState s accepts events (n + 1)) ∧
      ServedOnly i (s.clients i).conn (roundState s accepts events n)
        (roundState s accepts events (n + 1)) ∧
      (∀ c ∈ (entryCalls (roundState s accepts events n) entry).1,
        c = (s.clients i).endpoint ∧ 0 ≤ c.1) ∧
      ∀ k, .accepted k ∈ (roundState s accepts events n).trace → .accepted k ∉ s.trace →
        k ≠ (s.clients i).conn := by
  obtain ⟨i, hmade⟩ := exists_madeFor h haccepts hevents hentry
  have hsucc : roundState s accepts events (n + 1) =
      serveEntry (roundState s accepts events n) entry := roundState_succ hentry
  have hsteps : ReflTransGen (ServeStep i) (roundState s accepts events n)
      (roundState s accepts events (n + 1)) := by
    rw [hsucc]
    exact hmade.steps
  have hholds : Holds i (s.clients i).conn (roundState s accepts events n) := fun hlive =>
    congrArg Prod.snd (hmade.same hlive)
  refine ⟨(entryCalls_snd ..).trans hsucc.symm, hsucc, i, hmade.live, hmade.fd, ?_, hsteps,
    .of_run hholds hsteps fun _ _ hu hst => hst.servedOnly hu, fun c hc => ?_, fun k hk hnew => ?_⟩
  · by_cases hlive : ((roundState s accepts events n).clients i).Live
    · exact .inl ⟨hmade.findClientByFd_eq hlive, hmade.same hlive⟩
    · have hnone := hmade.findClientByFd_eq_none hlive
      obtain ⟨reason, hclosed⟩ := hmade.gone hlive
      refine .inr ⟨hnone, ?_, reason, hclosed, fun hold => ?_⟩
      · rw [hsucc, serveEntry, hnone]
      · exact (numbered h.reachable.moveReachable).closed _ reason hold i hmade.live rfl
  · have hcall := hmade.calls hc
    exact ⟨hcall, hcall ▸ hmade.live⟩
  · rintro rfl
    exact hnew ((lifetimes h.reachable.moveReachable).accepted i hmade.live)

/-- The second entry of a round that closed the first client is read: its calls have descriptor
`5`, and the client that was accepted into the round is left alone. -/
theorem poll_events_reach_their_connection_twoClients :
    ∃ i, ((twoClients 4096).clients i).fd = 5 ∧
      (∀ c ∈ (entryCalls (roundState (twoClients 4096) [.conn 6 true]
        [⟨true, false, false, [], []⟩, ⟨false, true, true, [.eof], [.again]⟩] 1)
        (5, ⟨false, true, true, [.eof], [.again]⟩)).1, c.1 = 5) ∧
      ServedOnly i 2 (roundState (twoClients 4096) [.conn 6 true]
          [⟨true, false, false, [], []⟩, ⟨false, true, true, [.eof], [.again]⟩] 1)
        (roundState (twoClients 4096) [.conn 6 true]
          [⟨true, false, false, [], []⟩, ⟨false, true, true, [.eof], [.again]⟩] 2) := by
  have hreach : CallReachable (twoClients 4096) := callReachable_twoClients (by decide)
  have hfresh : FreshAccepts (twoClients 4096) [.conn 6 true] := by
    refine ⟨fun i => ?_, trivial⟩
    revert i
    decide +kernel
  have hevents : ∀ e ∈ ([⟨true, false, false, [], []⟩, ⟨false, true, true, [.eof], [.again]⟩] :
      List PollEvents), .data [] ∉ e.recvs := by simp
  have hentry : ((pollSet (twoClients 4096)).zip ([⟨true, false, false, [], []⟩,
      ⟨false, true, true, [.eof], [.again]⟩] : List PollEvents))[1]? =
        some (5, ⟨false, true, true, [.eof], [.again]⟩) := rfl
  have hconn : ∀ i, ((twoClients 4096).clients i).fd = 5 →
      ((twoClients 4096).clients i).conn = 2 := by decide +kernel
  obtain ⟨-, -, i, -, hfd, -, -, hserved, hcalls, -⟩ :=
    poll_events_reach_their_connection hreach hfresh hevents hentry
  rw [hconn i hfd] at hserved
  refine ⟨i, hfd, fun c hc => ?_, hserved⟩
  rw [(hcalls c hc).1]
  exact hfd

end Core
end ChannelWire
