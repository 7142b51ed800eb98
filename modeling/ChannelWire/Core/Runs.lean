import ChannelWire.Core.Loop

/-!
# Rounds are calls, calls are steps

The three ways to run the server that `Loop.lean` defines, each contained in the next: a round
of the loop in `main` is a sequence of calls (`pollRound_calls`) and a call a sequence of steps
(`Call.steps`).  So every state a round goes through is reachable in the sense of `Reachable`,
and what is proved there holds in the poll loop.
-/

namespace ChannelWire
namespace Core

open LinkedQueue Relation

/-! ## Calls are steps -/

/-- What the loop over `pfds` does for the client in slot `i`: all steps but an `accept`. -/
inductive ServeStep (i : Slot) : Server → Server → Prop where
  | recv {s : Server} {chunk : Bytes} : (s.clients i).Live → chunk ≠ [] →
      (s.clients i).inbuf.length + chunk.length ≤ cwInbufCap → ServeStep i s (recvChunk s i chunk)
  | drain {s : Server} : (s.clients i).Live → ServeStep i s (drainTurn s i).2
  | send {s : Server} {n : ℕ} {frame : OutFrame} {rest : List OutFrame} :
      (s.clients i).Live → (s.clients i).out.toList = frame :: rest → 0 < n →
      n ≤ frame.len - frame.sent → ServeStep i s (takeSent s i n)
  | disconnect {s : Server} {reason : Reason} : (s.clients i).Live → reason ≠ .queueOverflow →
      ServeStep i s (disconnectClient s i reason)

theorem ServeStep.step {s t : Server} {i : Slot} (h : ServeStep i s t) : Step s t := by
  cases h with
  | recv hl hne hcap => exact .recv hl hne hcap
  | drain hl => exact .drain hl
  | send hl hout hn hle => exact .send hl hout hn hle
  | disconnect hl _ => exact .disconnect hl

/-- A turn that goes on, or ends with `0`, leaves the connection there. -/
theorem live_of_drainTurn {s : Server} {i : Slot} (hl : (s.clients i).Live)
    (h : (drainTurn s i).1 ≠ some false) : ((drainTurn s i).2.clients i).Live := by
  rw [drainTurn_eq] at h ⊢
  split
  · exact hl
  · next hhead =>
    rw [hhead] at h
    exact absurd rfl h
  · next frame n hhead =>
    rw [hhead] at h
    simp only [serveFrame] at h ⊢
    split_ifs with hlive
    · rwa [Server.setClient_self]
    · rw [if_neg hlive] at h
      exact absurd rfl h

theorem drainLoop_steps {n : ℕ} {s : Server} {i : Slot} (hl : (s.clients i).Live) :
    ReflTransGen (ServeStep i) s (drainLoop n s i).2 ∧
      ((drainLoop n s i).1 = true → ((drainLoop n s i).2.clients i).Live) := by
  induction n generalizing s with
  | zero => exact ⟨.refl, fun _ => hl⟩
  | succ n ih =>
    have hlive := live_of_drainTurn hl
    have hstep : ServeStep i s (drainTurn s i).2 := .drain hl
    rw [drainLoop]
    cases hd : drainTurn s i with
    | mk r t =>
      rw [hd] at hlive hstep
      cases r with
      | none =>
        obtain ⟨hrun, hstay⟩ := ih (hlive (by simp))
        exact ⟨.head hstep hrun, hstay⟩
      | some r =>
        refine ⟨.single hstep, fun hr => hlive ?_⟩
        rintro ⟨⟩
        cases hr

theorem live_recvChunk {s : Server} {i : Slot} (hl : (s.clients i).Live) (chunk : Bytes) :
    ((recvChunk s i chunk).clients i).Live := by
  rw [recvChunk, Server.emit_clients, Server.setClient_self]
  exact hl

/-- The bytes that `recv` stores are some, if there is room and it did not answer with none. -/
theorem stored_ne_nil {bytes : Bytes} {rs : List RecvResult} {free : ℕ} (hfree : free ≠ 0)
    (hrs : .data [] ∉ RecvResult.data bytes :: rs) : bytes.take free ≠ [] := by
  rw [Ne, List.take_eq_nil_iff, not_or]
  refine ⟨hfree, ?_⟩
  rintro rfl
  exact hrs List.mem_cons_self

theorem drainInput_steps {s : Server} {i : Slot} (hl : (s.clients i).Live) :
    ReflTransGen (ServeStep i) s (drainInput s i).2 := (drainLoop_steps hl).1

/-- A `drain_input` that returns `0` leaves the connection there. -/
theorem live_of_drainInput {s : Server} {i : Slot} (hl : (s.clients i).Live)
    (h : (drainInput s i).1 = true) : ((drainInput s i).2.clients i).Live :=
  (drainLoop_steps hl).2 h

theorem readFromClient_steps {rs : List RecvResult} {s : Server} {i : Slot}
    (hl : (s.clients i).Live) (hrs : .data [] ∉ rs) :
    ReflTransGen (ServeStep i) s (readFromClient s i rs) := by
  induction rs generalizing s with
  | nil => exact .refl
  | cons r rs ih =>
    have hrs' : RecvResult.data [] ∉ rs := fun h => hrs (List.mem_cons_of_mem _ h)
    simp only [readFromClient]
    split_ifs with hfree
    · exact .single (.disconnect hl (by simp))
    · cases r with
      | data bytes =>
        have hlen := List.length_take_le (cwInbufCap - (s.clients i).inbuf.length) bytes
        have hrecv : ServeStep i s
            (recvChunk s i (bytes.take (cwInbufCap - (s.clients i).inbuf.length))) :=
          .recv hl (stored_ne_nil hfree hrs) (by omega)
        have hlive := live_recvChunk hl (bytes.take (cwInbufCap - (s.clients i).inbuf.length))
        have hdrain := drainInput_steps hlive
        have hstay := live_of_drainInput hlive
        simp only
        cases hd : drainInput _ i with
        | mk r t =>
          rw [hd] at hdrain hstay
          cases r with
          | true => exact (ReflTransGen.head hrecv hdrain).trans (ih (hstay rfl) hrs')
          | false => exact .head hrecv hdrain
      | eof => exact .single (.disconnect hl (by simp))
      | again => exact .refl
      | intr => exact ih hl hrs'
      | failed => exact .single (.disconnect hl (by simp))

theorem live_takeSent {s : Server} {i : Slot} {n : ℕ} (hl : (s.clients i).Live) :
    ((takeSent s i n).clients i).Live := by
  unfold takeSent
  simp only
  split
  · exact hl
  · split_ifs <;> rw [Server.setClient_self] <;> exact hl

theorem writeToClient_steps {rs : List SendResult} {s : Server} {i : Slot}
    (hl : (s.clients i).Live) : ReflTransGen (ServeStep i) s (writeToClient s i rs) := by
  induction rs generalizing s with
  | nil => exact .refl
  | cons r rs ih =>
    rw [writeToClient]
    cases hout : (s.clients i).out.toList with
    | nil => exact .refl
    | cons frame rest =>
      cases r with
      | took n =>
        simp only
        split_ifs with hn
        · exact .single (.disconnect hl (by simp))
        · exact .head (.send hl hout (Nat.pos_of_ne_zero hn) (Nat.min_le_right ..))
            (ih (live_takeSent hl))
      | again => exact .refl
      | intr => exact ih hl
      | failed => exact .single (.disconnect hl (by simp))

/-- **Every call is a sequence of steps.** -/
theorem Call.steps {s t : Server} (h : Call s t) : ReflTransGen Step s t := by
  cases h with
  | accept hfd => exact .single (.accept hfd)
  | read hl hrs => exact ReflTransGen.mono (fun _ _ => ServeStep.step) _ _ (readFromClient_steps hl hrs)
  | write hl => exact ReflTransGen.mono (fun _ _ => ServeStep.step) _ _ (writeToClient_steps hl)
  | pollError hl => exact .single (.disconnect hl)

theorem CallReachable.reachable {s : Server} (h : CallReachable s) : Reachable s := by
  induction h with
  | init h => exact .init h
  | step _ hst ih => exact ih.trans hst.steps

/-! ## Rounds are calls -/

/-- What the kernel promises of the answers of `accept`: every new descriptor is one that is
not open at that time. -/
def FreshAccepts : Server → List AcceptResult → Prop
  | _, [] => True
  | s, .conn fd nonblocking :: rs =>
    FreshFd s fd ∧ FreshAccepts (acceptConnection s fd nonblocking) rs
  | s, .intr :: rs => FreshAccepts s rs
  | _, _ :: _ => True

theorem acceptClients_calls {rs : List AcceptResult} {s : Server} (h : FreshAccepts s rs) :
    ReflTransGen Call s (acceptClients s rs) := by
  induction rs generalizing s with
  | nil => exact .refl
  | cons r rs ih =>
    cases r with
    | conn fd nonblocking => exact .head (.accept h.1) (ih h.2)
    | again => exact .refl
    | intr => exact ih h
    | failed => exact .refl

/-- The body of the loop over `pfds` makes at most three calls.  A descriptor that `poll`
reports is not negative, so the slot found for it is live. -/
theorem serveEntry_calls {s : Server} {entry : ℤ × PollEvents} (hfd : 0 ≤ entry.1)
    (hrs : .data [] ∉ entry.2.recvs) : ReflTransGen Call s (serveEntry s entry) := by
  unfold serveEntry
  cases hf : findClientByFd s entry.1 with
  | none => exact .refl
  | some i =>
    have heq : (s.clients i).fd = entry.1 := by
      have hp := List.find?_some hf
      exact of_decide_eq_true hp
    have hl : (s.clients i).Live := by
      rw [Client.Live, heq]
      exact hfd
    simp only
    split_ifs with herr hread hwrite hwrite
    · exact .single (.pollError hl)
    · exact .head (.read hl hrs) (.single (.write hwrite.1))
    · exact .single (.read hl hrs)
    · exact .single (.write hwrite.1)
    · exact .refl

/-- **Every round of the loop in `main` is a sequence of calls.** -/
theorem pollRound_calls {s : Server} {accepts : List AcceptResult} {events : List PollEvents}
    (haccepts : FreshAccepts s accepts) (hrs : ∀ e ∈ events, .data [] ∉ e.recvs) :
    ReflTransGen Call s (pollRound s accepts events) := by
  have hentries : ∀ entry ∈ (pollSet s).zip events, 0 ≤ entry.1 ∧ .data [] ∉ entry.2.recvs := by
    rintro ⟨fd, e⟩ hmem
    obtain ⟨hfd, he⟩ := List.of_mem_zip hmem
    obtain ⟨i, hi, rfl⟩ := List.mem_map.mp hfd
    exact ⟨of_decide_eq_true (List.mem_filter.mp hi).2, hrs e he⟩
  unfold pollRound
  refine (acceptClients_calls haccepts).trans ?_
  generalize acceptClients s accepts = u
  generalize (pollSet s).zip events = entries at hentries
  induction entries generalizing u with
  | nil => exact .refl
  | cons entry entries ih =>
    obtain ⟨hfd, hrecvs⟩ := hentries entry List.mem_cons_self
    exact (serveEntry_calls hfd hrecvs).trans
      (ih _ fun e he => hentries e (List.mem_cons_of_mem _ he))

/-! ## Frames in one piece -/

/-- A frame arrives in one piece and is handled. -/
def deliver (s : Server) (i : Slot) (frame : Frame) : Server :=
  (drainTurn (recvChunk s i frame.encode) i).2

theorem Reachable.deliver {s : Server} {i : Slot} {frame : Frame} (h : Reachable s)
    (hl : (s.clients i).Live)
    (hroom : (s.clients i).inbuf.length + frame.encode.length ≤ cwInbufCap) :
    Reachable (deliver s i frame) := by
  have hne : frame.encode ≠ [] := by
    rw [← List.length_pos_iff, Frame.length_encode]
    exact Nat.add_pos_left (by decide) _
  exact .step (.step h (.recv hl hne hroom)) (.drain (live_recvChunk hl _))

/-- Two connections in the first two slots, for a queue limit and a heap that never fails. -/
def twoClients (maxQueueBytes : ℕ) : Server :=
  acceptConnection (acceptConnection (Server.initial maxQueueBytes fun _ => true) 4 true) 5 true

theorem callReachable_twoClients {maxQueueBytes : ℕ} (h : 0 < maxQueueBytes) :
    CallReachable (twoClients maxQueueBytes) := by
  refine .step (.step (.init ⟨maxQueueBytes, _, h, rfl⟩) (.accept ?_)) (.accept ?_)
  · intro i
    exact (by decide : (-1 : ℤ) ≠ (4 : ℕ))
  · intro i
    have hfirst : (acceptConnection (Server.initial maxQueueBytes fun _ => true) 4 true).clients =
        Function.update (fun _ => Client.blank) 0 { Client.blank with fd := 4, conn := 1 } := rfl
    rw [hfirst]
    rcases eq_or_ne i 0 with rfl | hne
    · rw [Function.update_self]
      exact (by decide : (4 : ℤ) ≠ (5 : ℕ))
    · rw [Function.update_of_ne hne]
      exact (by decide : (-1 : ℤ) ≠ (5 : ℕ))

theorem reachable_twoClients {maxQueueBytes : ℕ} (h : 0 < maxQueueBytes) :
    Reachable (twoClients maxQueueBytes) := (callReachable_twoClients h).reachable

/-- The two register as `alice` and `bob`. -/
def aliceAndBob (maxQueueBytes : ℕ) : Server :=
  deliver (deliver (twoClients maxQueueBytes) 0 ⟨1, stringField (ascii "alice")⟩) 1
    ⟨1, stringField (ascii "bob")⟩

/-- Both join the channel `room`, and `alice` says something in it. -/
def roomWithText : Server :=
  deliver (deliver (deliver (aliceAndBob 4096) 0 ⟨2, stringField (ascii "room")⟩) 1
    ⟨2, stringField (ascii "room")⟩) 0 ⟨5, stringField (ascii "hello")⟩

theorem reachable_roomWithText : Reachable roomWithText := by
  refine .deliver (.deliver (.deliver (.deliver (.deliver (reachable_twoClients ?_) ?_ ?_)
    ?_ ?_) ?_ ?_) ?_ ?_) ?_ ?_ <;> decide

end Core
end ChannelWire
