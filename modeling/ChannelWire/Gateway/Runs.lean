import ChannelWire.Core.Runs
import ChannelWire.Gateway.System

/-!
# Schedules

A schedule is a list of things to do with the core and the sessions, each of which is one event or
two.  Whether it can be done is decidable if the sessions are known, so a run is given by its
schedule (`schedule_reachable`).

The runs that examples use begin with the registration of one session (`aliceOnline`).
-/

namespace ChannelWire
namespace Gateway

/-- What a schedule does next. -/
inductive Op where
  /-- The core accepts a connection, and a browser with a token for `u` opens a session on it. -/
  | connect (fd : ℕ) (u : Username)
  /-- A frame arrives at the core in one piece and is handled. -/
  | deliver (i : Core.Slot) (frame : Frame)
  /-- The first frame of a queue is sent. -/
  | flush (i : Core.Slot)
  | read (k : ℕ)
  | command (k : ℕ) (loaded : Except ValueError Json)
  | finish (k : ℕ) (cancelled : Bool)
  | halt (k : ℕ)

/-- How much of the first frame of a queue is not sent yet. -/
def unsent (c : Core.Client) : ℕ := c.out.toList.head?.elim 0 fun frame => frame.len - frame.sent

namespace State

/-- The same state with another core. -/
def setCore (s : State) (core : Core.Server) : State := { s with core := core }

/-- What it does. -/
def perform (s : State) : Op → State
  | .connect fd u => (s.setCore (Core.acceptConnection s.core fd true)).setSession
    (s.core.stats.totalConnections + 1) (openRegisteredCore u)
  | .deliver i frame => s.setCore (Core.deliver s.core i frame)
  | .flush i => s.setCore (Core.takeSent s.core i (unsent (s.core.clients i)))
  | .read k =>
    match s.sessions k with
    | none => s
    | some x => (s.nextFrame k x).elim s (s.read k x)
  | .command k loaded => (s.sessions k).elim s fun x => s.command k x loaded
  | .finish k cancelled => (s.sessions k).elim s fun x => s.finish k x cancelled
  | .halt k => (s.sessions k).elim s fun x => s.halt k x

/-- The states after each step of a schedule. -/
def run (s : State) (ops : List Op) : State := ops.foldl perform s

/-- The core received from each of the sessions what it wrote. -/
def DeliveredTo (ks : List ℕ) (s : State) : Prop :=
  ∀ k ∈ ks, ∀ x ∈ s.sessions k,
    Core.receivedBy k s.core.trace <+: cwFraming.encodeAll (x.sent.map Sent.frame)

instance (ks : List ℕ) (s : State) : Decidable (s.DeliveredTo ks) := by
  unfold DeliveredTo
  infer_instance

end State

/-- The operation can be done, when all sessions are among `ks`. -/
def Enabled (ks : List ℕ) (s : State) : Op → Prop
  | .connect fd _ => Core.FreshFd s.core fd ∧ (Core.freeSlot s.core).isSome = true ∧
    s.core.stats.totalConnections + 1 ∈ ks ∧
    (s.setCore (Core.acceptConnection s.core fd true)).DeliveredTo ks
  | .deliver i frame => (s.core.clients i).Live ∧
    (s.core.clients i).inbuf.length + frame.encode.length ≤ Core.cwInbufCap ∧
    (s.setCore (Core.recvChunk s.core i frame.encode)).DeliveredTo ks ∧
    (s.perform (.deliver i frame)).DeliveredTo ks
  | .flush i => (s.core.clients i).Live ∧ 0 < unsent (s.core.clients i) ∧
    (s.perform (.flush i)).DeliveredTo ks
  | .read k => ∃ x ∈ s.sessions k, (x.phase = .registering ∨ x.phase ≠ .registering ∧
    x.reading = true) ∧ (s.nextFrame k x).isSome = true
  | .command k _ => ∃ x ∈ s.sessions k, x.phase ≠ .registering ∧ x.writing = true
  | .finish k _ => ∃ x ∈ s.sessions k, x.phase ≠ .over
  | .halt k => ∃ x ∈ s.sessions k, x.reading = true

instance (ks : List ℕ) (s : State) (op : Op) : Decidable (Enabled ks s op) := by
  cases op <;> unfold Enabled <;> first | infer_instance | (unfold Core.FreshFd; infer_instance)

/-- The events of an operation meet the condition. -/
def Admitted (admits : State → Event → Prop) (s : State) : Op → Prop
  | .connect fd u => admits s (.core (Core.acceptConnection s.core fd true)) ∧
    admits (s.setCore (Core.acceptConnection s.core fd true))
      (.connect (s.core.stats.totalConnections + 1) u)
  | .deliver i frame => admits s (.core (Core.recvChunk s.core i frame.encode)) ∧
    admits (s.setCore (Core.recvChunk s.core i frame.encode))
      (.core (Core.deliver s.core i frame))
  | .flush i => admits s (.core (Core.takeSent s.core i (unsent (s.core.clients i))))
  | .read k => admits s (.read k)
  | .command k loaded => admits s (.command k loaded)
  | .finish k cancelled => admits s (.finish k cancelled)
  | .halt k => admits s (.halt k)

/-- Every operation of a schedule meets the condition in the state in which it is done. -/
def Throughout (P : State → Op → Prop) : State → List Op → Prop
  | _, [] => True
  | s, op :: ops => P s op ∧ Throughout P (s.perform op) ops

instance decidableThroughout (P : State → Op → Prop) [∀ s op, Decidable (P s op)] :
    (s : State) → (ops : List Op) → Decidable (Throughout P s ops)
  | _, [] => isTrue trivial
  | s, op :: ops => @instDecidableAnd _ _ _ (decidableThroughout P (s.perform op) ops)

theorem Throughout.mono {P Q : State → Op → Prop} (h : ∀ s op, P s op → Q s op) {s : State}
    {ops : List Op} (hP : Throughout P s ops) : Throughout Q s ops := by
  induction ops generalizing s with
  | nil => trivial
  | cons op ops ih => exact ⟨h s op hP.1, ih hP.2⟩

variable {admits : State → Event → Prop} {ks : List ℕ} {s : State}

/-- There is no session but those of `ks`. -/
def Within (ks : List ℕ) (s : State) : Prop := ∀ j, j ∉ ks → s.sessions j = none

theorem Within.delivered (hw : Within ks s) (h : s.DeliveredTo ks) : Delivered s := by
  intro k x hx
  by_cases hk : k ∈ ks
  · exact h k hk x hx
  · rw [hw k hk] at hx
    cases hx

/-- A session is opened by its own event only. -/
theorem Within.step {t : State} {e : Event} (hw : Within ks s) (h : Step s e t)
    (hconnect : ∀ k u, e = .connect k u → k ∈ ks) : Within ks t := by
  intro j hj
  cases hy : t.sessions j with
  | none => rfl
  | some y =>
    cases h.becomes hy with
    | connect _ _ _ => exact absurd (hconnect _ _ rfl) hj
    | idle hx | registered hx _ _ | abandoned hx _ _ _ | read hx _ _ _ | command hx _ _ | finish hx
    | halt hx _ =>
      rw [hw j hj] at hx
      cases hx

/-- The steps of the runs whose events all meet the condition. -/
abbrev Steps (admits : State → Event → Prop) : State → State → Prop :=
  Relation.ReflTransGen (system admits).step

theorem Steps.core {t : Core.Server} (hstep : Core.Step s.core t)
    (hdelivered : Delivered (s.setCore t)) (hadmits : admits s (.core t)) :
    Steps admits s (s.setCore t) := .single ⟨.core t, hadmits, .core hstep hdelivered⟩

/-- **An operation is a run of one event or two.** -/
theorem Reachable.perform {op : Op} (h : Reachable admits s) (hw : Within ks s)
    (hen : Enabled ks s op) (hadmitted : Admitted admits s op) :
    Steps admits s (s.perform op) ∧ Within ks (s.perform op) := by
  cases op with
  | connect fd u =>
    obtain ⟨hfd, hfree, hks, hdel⟩ := hen
    have hcore : Steps admits s (s.setCore (Core.acceptConnection s.core fd true)) :=
      .core (.accept hfd) (Within.delivered hw hdel) hadmitted.1
    have hn := Core.numbered (Core.Reachable.moveReachable (Reachable.core h))
    have htrace : (Core.acceptConnection s.core fd true).trace =
        s.core.trace ++ [.accepted (s.core.stats.totalConnections + 1)] := by
      obtain ⟨slot, hslot⟩ := Option.isSome_iff_exists.mp hfree
      unfold Core.acceptConnection
      rw [hslot]
      rfl
    have hstep : Step (s.setCore (Core.acceptConnection s.core fd true))
        (.connect (s.core.stats.totalConnections + 1) u) (s.perform (.connect fd u)) := by
      refine .connect ?_ ?_ ?_
      · show s.sessions _ = none
        cases hx : s.sessions (s.core.stats.totalConnections + 1) with
        | none => rfl
        | some x =>
          exact absurd rfl (hn.not_mentions (Nat.lt_succ_self _) _ (sessionOk h hx).accepted)
      · show _ ∈ (Core.acceptConnection s.core fd true).trace
        rw [htrace]
        exact List.mem_concat_self
      · show ∀ e ∈ (Core.acceptConnection s.core fd true).trace, _
        rw [htrace]
        intro e he hm
        rcases List.mem_append.mp he with he | he
        · exact absurd hm (hn.not_mentions (Nat.lt_succ_self _) e he)
        · exact .inl (List.mem_singleton.mp he)
    have hw' : Within ks (s.setCore (Core.acceptConnection s.core fd true)) := hw
    refine ⟨.tail hcore ⟨_, hadmitted.2, hstep⟩, hw'.step hstep ?_⟩
    rintro k' u' he
    obtain ⟨rfl, -⟩ := Event.connect.inj he
    exact hks
  | deliver i frame =>
    obtain ⟨hl, hroom, hdel, hdel'⟩ := hen
    have hne : frame.encode ≠ [] := by
      rw [← List.length_pos_iff, Frame.length_encode]
      exact Nat.add_pos_left (by decide) _
    have hrecv : Steps admits s (s.setCore (Core.recvChunk s.core i frame.encode)) :=
      .core (.recv hl hne hroom) (Within.delivered hw hdel) hadmitted.1
    refine ⟨hrecv.trans (Steps.core (.drain ?_) (Within.delivered hw hdel') hadmitted.2), hw⟩
    rw [State.setCore, Core.recvChunk, Core.Server.emit_clients, Core.Server.setClient_self]
    exact hl
  | flush i =>
    obtain ⟨hl, hpos, hdel⟩ := hen
    cases hout : (s.core.clients i).out.toList with
    | nil =>
      rw [unsent, hout] at hpos
      cases hpos
    | cons frame rest =>
      have hunsent : unsent (s.core.clients i) = frame.len - frame.sent := by
        rw [unsent, hout]
        rfl
      exact ⟨.core (.send hl hout hpos hunsent.le) (Within.delivered hw hdel) hadmitted, hw⟩
  | read k =>
    obtain ⟨x, hx, hphase, hnext⟩ := hen
    obtain ⟨frame, hframe⟩ := Option.isSome_iff_exists.mp hnext
    have hperform : s.perform (.read k) = s.read k x frame := by
      rw [State.perform, hx]
      simp only
      rw [hframe]
      rfl
    have hstep := Step.read hx hphase hframe
    rw [hperform]
    exact ⟨.single ⟨_, hadmitted, hstep⟩, hw.step hstep (fun _ _ h => by cases h)⟩
  | command k loaded =>
    obtain ⟨x, hx, hphase, hwriting⟩ := hen
    have hperform : s.perform (.command k loaded) = s.command k x loaded := by
      rw [State.perform, hx]
      rfl
    have hstep : Step s (.command k loaded) (s.command k x loaded) := .command hx hphase hwriting
    rw [hperform]
    exact ⟨.single ⟨_, hadmitted, hstep⟩, hw.step hstep (fun _ _ h => by cases h)⟩
  | finish k cancelled =>
    obtain ⟨x, hx, hphase⟩ := hen
    have hperform : s.perform (.finish k cancelled) = s.finish k x cancelled := by
      rw [State.perform, hx]
      rfl
    have hstep : Step s (.finish k cancelled) (s.finish k x cancelled) := .finish hx hphase
    rw [hperform]
    exact ⟨.single ⟨_, hadmitted, hstep⟩, hw.step hstep (fun _ _ h => by cases h)⟩
  | halt k =>
    obtain ⟨x, hx, hreading⟩ := hen
    have hperform : s.perform (.halt k) = s.halt k x := by
      rw [State.perform, hx]
      rfl
    have hstep : Step s (.halt k) (s.halt k x) := .halt hx hreading
    rw [hperform]
    exact ⟨.single ⟨_, hadmitted, hstep⟩, hw.step hstep (fun _ _ h => by cases h)⟩

/-- **A schedule is a run.** -/
theorem schedule_steps {ops : List Op} (h : Reachable admits s) (hw : Within ks s)
    (hlegal : Throughout (Enabled ks) s ops) (hadmitted : Throughout (Admitted admits) s ops) :
    Steps admits s (s.run ops) ∧ Within ks (s.run ops) := by
  induction ops generalizing s with
  | nil => exact ⟨.refl, hw⟩
  | cons op ops ih =>
    obtain ⟨hsteps, hw'⟩ := h.perform hw hlegal.1 hadmitted.1
    obtain ⟨hrest, hwithin⟩ := ih (h.trans hsteps) hw' hlegal.2 hadmitted.2
    exact ⟨hsteps.trans hrest, hwithin⟩

theorem schedule_reachable {ops : List Op} (h : Reachable admits s) (hw : Within ks s)
    (hlegal : Throughout (Enabled ks) s ops) (hadmitted : Throughout (Admitted admits) s ops) :
    Reachable admits (s.run ops) := h.trans (schedule_steps h hw hlegal hadmitted).1

/-! ## One session -/

/-- A user with an account. -/
def alice : Username := ⟨py "alice", by decide⟩

/-- The core has just started, and `alice` has a row in `users`. -/
def start : State where
  core := Core.Server.initial 4096 fun _ => true
  sessions _ := none
  db := ⟨⟨[⟨alice.name, none⟩], [], [], []⟩, by decide⟩
  active _ := 0

theorem initial_start : Initial start := ⟨⟨4096, _, by decide, rfl⟩, rfl, rfl⟩

theorem reachable_start : Reachable admits start := .init initial_start

/-- `alice` opens a session, and the core answers its `HELLO`. -/
def aliceOnline : List Op := [.connect 4 alice, .deliver 0 (helloFrame alice), .flush 0, .read 1]

/-- The message in which `alice` writes to herself. -/
def dmMyself : Dict :=
  [(py "type", .string (py "dm")), (py "to", .string alice.name), (py "text", .string (py "hi"))]

/-- Its frame. -/
def dmMyselfFrame : Frame := ⟨6, stringField alice.bytes ++ stringField (ascii "hi")⟩

/-- `alice` writes to herself and reads both frames she gets for it. -/
def dmOnly : List Op := aliceOnline ++ [.command 1 (.ok (.object dmMyself)),
  .deliver 0 dmMyselfFrame, .flush 0, .flush 0, .read 1, .read 1]

/-- A run of the session of `alice`. -/
theorem reachable_of_schedule {ops : List Op} (hlegal : Throughout (Enabled [1]) start ops)
    (hadmitted : Throughout (Admitted admits) start ops) : Reachable admits (start.run ops) :=
  schedule_reachable reachable_start (fun _ _ => rfl) hlegal hadmitted

/-- Nothing is demanded of the events of an operation. -/
theorem admitted_true (s : State) (op : Op) : Admitted (fun _ _ => True) s op := by
  cases op with
  | connect _ _ | deliver _ _ => exact ⟨trivial, trivial⟩
  | flush _ | read _ | command _ _ | finish _ _ | halt _ => trivial

/-- A run of which nothing is demanded. -/
theorem reachable_of_legal {ops : List Op} (hlegal : Throughout (Enabled [1]) start ops) :
    Reachable (fun _ _ => True) (start.run ops) :=
  reachable_of_schedule hlegal (hlegal.mono fun s op _ => admitted_true s op)

/-! ## Two sessions -/

/-- Another user. -/
def bob : Username := ⟨py "bob", by decide⟩

/-- The core has just started, and `alice` and `bob` have a row in `users`. -/
def twoUsers : State :=
  { start with db := ⟨⟨[⟨alice.name, none⟩, ⟨bob.name, none⟩], [], [], []⟩, by decide⟩ }

theorem initial_twoUsers : Initial twoUsers := ⟨⟨4096, _, by decide, rfl⟩, rfl, rfl⟩

/-- The message with which a user joins a channel. -/
def joinMessage (channel : String) : Dict :=
  [(py "type", .string (py "join")), (py "channel", .string (py channel))]

/-- The message with which a user says something. -/
def sayMessage (text : String) : Dict :=
  [(py "type", .string (py "say")), (py "text", .string (py text))]

/-- Their frames. -/
def joinFrame (channel : String) : Frame :=
  ⟨ClientMsgType.join.toByte, stringField (ascii channel)⟩

def sayFrame (text : String) : Frame := ⟨ClientMsgType.say.toByte, stringField (ascii text)⟩

/-- `alice` and `bob` open a session each, and join `room`. -/
def inRoom : List Op := aliceOnline ++
  [.connect 5 bob, .deliver 1 (helloFrame bob), .flush 1, .read 2,
    .command 1 (.ok (.object (joinMessage "room"))), .deliver 0 (joinFrame "room"), .flush 0, .read 1,
    .command 2 (.ok (.object (joinMessage "room"))), .deliver 1 (joinFrame "room"), .flush 1, .read 2]

end Gateway
end ChannelWire
