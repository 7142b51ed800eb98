import ChannelWire.Foundation.Coroutine
import ChannelWire.Foundation.Transition
import ChannelWire.Gateway.Event
import Mathlib.Data.List.Count

/-!
# What handlers hold

`websocket_endpoint`, `channels`, `core_stats` and `ready` of `gateway/app/main.py`, as coroutines:
each opens a connection to the core with `open_registered_core`, and `websocket_endpoint` counts its
user in `active_gateway_users`.  An exception can strike at every `await`, a cancellation among them.

The connection is closed and the user counted back on every way through a handler but those on
which an exception strikes where nothing waits for it (`Harmful`): `accept` and the sending of
`ready` stand before the `try`, and the `finally` of the queries waits for its `QUIT` to be written
before it closes (`ends_of_mem`).  `released_iff` says the same of all handlers running together.
-/

namespace ChannelWire
namespace Gateway

open Coroutine

/-! ## Handlers -/

/-- The exceptions, as far as the handlers tell them apart. -/
inductive Exn where
  | http (status : ℕ)
  | cancelled
  /-- The `CancelledError` with which `asyncio.timeout` ends a wait. -/
  | deadline
  | webSocketDisconnect
  | incompleteRead
  | connection
  /-- Another `OSError`, such as `TimeoutError`. -/
  | os
  | other
  deriving DecidableEq

def Exn.isOSError : Exn → Bool
  | connection | os => true
  | _ => false

/-- What a handler waits for. -/
inductive Point where
  | openConnection
  /-- `core_send`, of `HELLO` and of a query. -/
  | coreSend (type : ClientMsgType)
  | coreRead
  | waitClosed
  /-- `core_send` of the `QUIT` in `channels` and `core_stats`. -/
  | sendQuit
  /-- The same in `ready`. -/
  | sendQuitReady
  | accept
  | sendReady
  /-- `asyncio.wait` for the two tasks, and their results. -/
  | tasks
  | closeWebSocket

/-- What a wait returns; `coreRead` returns a frame. -/
inductive Answer where
  | done
  | frame (frame : Frame)

/-- What a handler does to what it shares with others. -/
inductive Sharing where
  /-- `open_connection` has returned the writer. -/
  | openWriter
  /-- `writer.close()`. -/
  | closeWriter
  /-- The user is counted in `active_gateway_users`. -/
  | countUser
  | uncountUser

abbrev Handler (α : Type) := Coroutine Point Answer Sharing Exn α

namespace Handler

/-- `core_send`. -/
def coreSend (type : ClientMsgType) : Handler Unit := (wait (.coreSend type)).bind fun _ => ret ()

/-- `core_read`. -/
def coreRead : Handler Frame :=
  (wait .coreRead).bind fun
    | .frame frame => ret frame
    | .done => raise .other

/-- `open_registered_core`. -/
def openRegisteredCore : Handler Unit :=
  (wait .openConnection).bind fun _ =>
  (emit .openWriter).bind fun _ =>
  tryExcept
    ((coreSend .hello).bind fun _ =>
      coreRead.bind fun frame =>
        if frame.type ≠ ServerMsgType.ok.toByte then raise (.http 409) else ret ())
    fun e => some
      ((emit .closeWriter).bind fun _ =>
        (suppress Exn.isOSError (wait .waitClosed)).bind fun _ => raise e)

/-- `channels` and `core_stats`. -/
def query (type : ClientMsgType) (isAnswer : GatewayEvent → Bool) : Handler GatewayEvent :=
  openRegisteredCore.bind fun _ =>
  tryFinally
    ((coreSend type).bind fun _ =>
      coreRead.bind fun frame =>
        match gatewayEvent frame with
        | .error _ => raise .other
        | .ok event => if isAnswer event then ret event else raise (.http 502))
    ((wait .sendQuit).bind fun _ =>
      (emit .closeWriter).bind fun _ => (wait .waitClosed).bind fun _ => ret ())

/-- `channels`. -/
def channels : Handler GatewayEvent := query .list fun
  | .channels _ => true
  | _ => false

/-- `core_stats`. -/
def coreStats : Handler GatewayEvent := query .stats fun
  | .coreStats _ | .coreStatsRaw _ => true
  | _ => false

/-- `ready`: `writer` is set if `open_registered_core` has returned, and the `finally` does nothing
otherwise. -/
def ready : Handler Unit :=
  (tryExcept openRegisteredCore fun e =>
    if e = .deadline ∨ e = .incompleteRead ∨ (e matches .http _) ∨ e.isOSError then
      some (raise (.http 503))
    else none).bind fun _ =>
  (suppress Exn.isOSError (wait .sendQuitReady)).bind fun _ =>
  (emit .closeWriter).bind fun _ => suppress Exn.isOSError (wait .waitClosed)

/-- What `websocket_endpoint` does with an open connection. -/
def session : Handler Unit :=
  (wait .accept).bind fun _ =>
  (emit .countUser).bind fun _ =>
  (wait .sendReady).bind fun _ =>
  tryFinally
    (tryExcept ((wait .tasks).bind fun _ => ret ()) fun e =>
      if e ∈ [Exn.webSocketDisconnect, .incompleteRead, .connection] then some (ret ()) else none)
    ((emit .uncountUser).bind fun _ =>
      (emit .closeWriter).bind fun _ => (wait .waitClosed).bind fun _ => ret ())

/-- `websocket_endpoint`, with the token of a user. -/
def websocketEndpoint : Handler Unit :=
  (tryExcept (openRegisteredCore.bind fun _ => ret true) fun e =>
    if e matches .http _ then some ((wait .closeWebSocket).bind fun _ => ret false)
    else none).bind fun opened => if opened then session else ret ()

end Handler

/-! ## What one handler holds -/

/-- What a handler holds, and whether an exception has struck it where nothing waits for it. -/
structure Held where
  writer : Bool
  counted : Bool
  harmed : Bool
  deriving DecidableEq

/-- The exceptions that no `try` waits for. -/
def Harmful : Point → Except Exn Answer → Bool
  | .accept, .error _ | .sendReady, .error _ | .sendQuit, .error _ => true
  | .sendQuitReady, .error e => !e.isOSError
  | _, _ => false

/-- What effects and answers do to it. -/
def holding : Effects Point Answer Sharing Exn Held where
  legal
    | .openWriter, s => s.writer = false
    | .closeWriter, s => s.writer = true
    | .countUser, s => s.counted = false
    | .uncountUser, s => s.counted = true
  apply
    | .openWriter, s => { s with writer := true }
    | .closeWriter, s => { s with writer := false }
    | .countUser, s => { s with counted := true }
    | .uncountUser, s => { s with counted := false }
  answer point r s := { s with harmed := s.harmed || Harmful point r }

/-- Everything is released, unless the handler was harmed; then its connection is open. -/
def Settled (s : Held) : Prop :=
  s.harmed = false ∧ s.writer = false ∧ s.counted = false ∨ s.harmed = true ∧ s.writer = true

/-- Nothing is held. -/
def Held.none : Held := ⟨false, false, false⟩

namespace Handler

variable {s : Held}

theorem coreSend_ends (type : ClientMsgType) :
    (coreSend type).Ends holding (fun _ s' => s' = s) s := by
  refine ends_bind (ends_wait fun r => ?_)
  cases r <;> exact congrArg (Held.mk _ _) (Bool.or_false _)

theorem coreRead_ends : coreRead.Ends holding (fun _ s' => s' = s) s := by
  refine ends_bind (ends_wait fun r => ?_)
  rcases r with e | _ | frame <;> exact congrArg (Held.mk _ _) (Bool.or_false _)

/-- **`open_registered_core` returns with an open connection, or raises without one.** -/
theorem openRegisteredCore_ends : openRegisteredCore.Ends holding (fun r s => match r with
    | .ok _ => s = ⟨true, false, false⟩
    | .error _ => s = .none) .none := by
  refine ends_bind (ends_wait fun r => ?_)
  cases r with
  | error e => rfl
  | ok a =>
    refine ends_bind (ends_emit rfl (ends_tryExcept ?_))
    have hfail : ∀ e s, s = (⟨true, false, false⟩ : Held) →
        ((emit .closeWriter).bind fun _ =>
          (suppress Exn.isOSError (wait .waitClosed)).bind fun _ =>
            (raise e : Handler Unit)).Ends holding (fun r s => match r with
          | .ok _ => s = ⟨true, false, false⟩
          | .error _ => s = .none) s := by
      rintro e s rfl
      refine ends_bind (ends_emit rfl (ends_bind (ends_suppress (ends_wait fun r => ?_))))
      cases r with
      | ok a => rfl
      | error e' =>
        simp only
        split_ifs <;> rfl
    refine ends_bind ((coreSend_ends _).mono fun r s hs => ?_)
    cases r with
    | error e => exact hfail e s hs
    | ok _ =>
      refine ends_bind (coreRead_ends.mono fun r s' hs' => ?_)
      cases r with
      | error e => exact hfail e s' (hs'.trans hs)
      | ok frame =>
        simp only
        split_ifs
        · exact hfail _ s' (hs'.trans hs)
        · exact hs'.trans hs

/-- What is left to do with a connection that nobody else waits for: it is closed. -/
theorem close_ends {s : Held} (hwriter : s.writer = true) (hcounted : s.counted = false)
    (hharmed : s.harmed = false) :
    ((emit .closeWriter).bind fun _ => (wait .waitClosed).bind fun _ =>
      (ret () : Handler Unit)).Ends holding (fun _ s => s = .none) s := by
  obtain ⟨writer, counted, harmed⟩ := s
  obtain rfl : counted = false := hcounted
  obtain rfl : harmed = false := hharmed
  refine ends_bind (ends_emit hwriter (ends_bind (ends_wait fun r => ?_)))
  cases r <;> rfl

theorem settled_none : Settled .none := .inl ⟨rfl, rfl, rfl⟩

theorem query_ends (type : ClientMsgType) (isAnswer : GatewayEvent → Bool) :
    (query type isAnswer).Ends holding (fun _ => Settled) .none := by
  refine ends_bind (openRegisteredCore_ends.mono fun r s hs => ?_)
  cases r with
  | error e => exact hs ▸ settled_none
  | ok _ =>
    obtain rfl : s = ⟨true, false, false⟩ := hs
    refine ends_tryFinally_state ?_
    have hfinal : ∀ s, s = (⟨true, false, false⟩ : Held) →
        ((wait .sendQuit).bind fun _ => (emit .closeWriter).bind fun _ =>
          (wait .waitClosed).bind fun _ => (ret () : Handler Unit)).Ends holding
        (fun _ => Settled) s := by
      rintro s rfl
      refine ends_bind (ends_wait fun r => ?_)
      cases r with
      | error e => exact .inr ⟨rfl, rfl⟩
      | ok a => exact (close_ends rfl rfl rfl).mono fun r s hs => hs ▸ settled_none
    refine ends_bind ((coreSend_ends _).mono fun r s hs => ?_)
    cases r with
    | error e => exact hfinal s hs
    | ok _ =>
      refine ends_bind (coreRead_ends.mono fun r s' hs' => ?_)
      cases r with
      | error e => exact hfinal s' (hs'.trans hs)
      | ok frame =>
        simp only
        split
        · exact hfinal s' (hs'.trans hs)
        · split_ifs <;> exact hfinal s' (hs'.trans hs)

theorem ready_ends : ready.Ends holding (fun _ => Settled) .none := by
  refine ends_bind (ends_tryExcept (openRegisteredCore_ends.mono fun r s hs => ?_))
  cases r with
  | error e =>
    obtain rfl : s = .none := hs
    simp only
    split_ifs <;> exact settled_none
  | ok _ =>
    obtain rfl : s = ⟨true, false, false⟩ := hs
    refine ends_bind (ends_suppress (ends_wait fun r => ?_))
    have hclose : ∀ s, s = (⟨true, false, false⟩ : Held) →
        ((emit .closeWriter).bind fun _ =>
          (suppress Exn.isOSError (wait .waitClosed) : Handler Unit)).Ends holding
        (fun _ => Settled) s := by
      rintro s rfl
      refine ends_bind (ends_emit rfl (ends_suppress (ends_wait fun r => ?_)))
      cases r with
      | ok a => exact settled_none
      | error e =>
        simp only
        split_ifs <;> exact settled_none
    cases r with
    | ok a => exact hclose _ rfl
    | error e =>
      simp only
      split_ifs with hos
      · exact hclose _ (congrArg (Held.mk _ _) (by simp [Harmful, hos]))
      · exact .inr ⟨by simp [Harmful, holding, hos], rfl⟩

theorem session_ends : session.Ends holding (fun _ => Settled) ⟨true, false, false⟩ := by
  refine ends_bind (ends_wait fun r => ?_)
  cases r with
  | error e => exact .inr ⟨rfl, rfl⟩
  | ok a =>
    refine ends_bind (ends_emit rfl (ends_bind (ends_wait fun r => ?_)))
    cases r with
    | error e => exact .inr ⟨rfl, rfl⟩
    | ok a =>
      refine ends_tryFinally_state ?_
      have hfinal : ((emit .uncountUser).bind fun _ => (emit .closeWriter).bind fun _ =>
          (wait .waitClosed).bind fun _ => (ret () : Handler Unit)).Ends holding
          (fun _ => Settled) ⟨true, true, false⟩ :=
        ends_bind (ends_emit rfl
          ((close_ends rfl rfl rfl).mono fun r s hs => hs ▸ settled_none))
      refine ends_tryExcept (ends_bind (ends_wait fun r => ?_))
      cases r with
      | ok a => exact hfinal
      | error e =>
        simp only
        split_ifs <;> exact hfinal

theorem websocketEndpoint_ends : websocketEndpoint.Ends holding (fun _ => Settled) .none := by
  refine ends_bind (ends_tryExcept (ends_bind (openRegisteredCore_ends.mono fun r s hs => ?_)))
  cases r with
  | ok _ =>
    obtain rfl : s = ⟨true, false, false⟩ := hs
    exact session_ends
  | error e =>
    obtain rfl : s = .none := hs
    simp only
    split_ifs
    · refine ends_bind (ends_wait fun r => ?_)
      cases r <;> exact settled_none
    · exact settled_none

end Handler

/-! ## All handlers -/

/-- A handler that was started for a user, with what it holds. -/
structure Running where
  user : PyStr
  program : Handler Unit
  held : Held

/-- The gateway: `active_gateway_users`, and all handlers that were ever started. -/
structure Process where
  active : PyStr → Option ℕ
  handlers : List Running

namespace Process

/-- An effect of handler `i`. -/
def act (i : ℕ) (g : Process) (effect : Sharing) : Process :=
  match g.handlers[i]? with
  | none => g
  | some h =>
    { active :=
        match effect with
        | .countUser => Function.update g.active h.user (some ((g.active h.user).getD 0 + 1))
        | .uncountUser =>
          let n := max ((g.active h.user).getD 1 - 1) 0
          Function.update g.active h.user (if n = 0 then none else some n)
        | .openWriter | .closeWriter => g.active
      handlers := g.handlers.set i { h with held := holding.apply effect h.held } }

/-- A handler is started. -/
def start (g : Process) (user : PyStr) (program : Handler Unit) : Process :=
  { g with handlers := g.handlers ++ [⟨user, program, .none⟩] }

/-- Handler `i` gets an answer, and runs to its next wait or to its end. -/
def resume (g : Process) (i : ℕ) (r : Except Exn Answer) : Option Process :=
  g.handlers[i]?.bind fun h =>
    match h.program with
    | .await point rest =>
      let held := holding.answer point r h.held
      let d := (rest r).drive (act i) { g with handlers := g.handlers.set i { h with held := held } }
      some { d.1 with handlers := d.1.handlers.modify i fun h => { h with program := d.2 } }
    | _ => none

/-- How many handlers have counted the user. -/
def countedBy (g : Process) (user : PyStr) : ℕ :=
  g.handlers.countP fun h => h.held.counted && h.user = user

end Process

/-- The handlers; the results of the queries are left out. -/
def handlerPrograms : List (Handler Unit) :=
  [.websocketEndpoint, Handler.channels.bind fun _ => ret (), Handler.coreStats.bind fun _ => ret (),
    Handler.ready]

/-- A step of the gateway. -/
inductive ProcessStep (g : Process) : Process → Prop where
  | start (user : PyStr) {program : Handler Unit} : program ∈ handlerPrograms →
      ProcessStep g (g.start user program)
  | resume (i : ℕ) (r : Except Exn Answer) {g' : Process} : g.resume i r = some g' →
      ProcessStep g g'

/-- The gateway, from its start. -/
def process : Transition.System Process where
  init g := (∀ u, g.active u = none) ∧ g.handlers = []
  step := ProcessStep

/-- `active_gateway_users` says how many handlers have counted a user. -/
def CountsOk (g : Process) : Prop :=
  ∀ u, g.active u = if g.countedBy u = 0 then none else some (g.countedBy u)

/-- Every handler is on its way to an end at which it has released what it holds, unless it was
harmed, and `active_gateway_users` counts the handlers that have counted their users. -/
structure ProcessOk (g : Process) : Prop where
  ends : ∀ h ∈ g.handlers, h.program.Ends holding (fun _ => Settled) h.held
  counts : CountsOk g

variable {g g' : Process}

theorem ends_of_mem {program : Handler Unit} (h : program ∈ handlerPrograms) :
    program.Ends holding (fun _ => Settled) .none := by
  have hquery : ∀ {c : Handler GatewayEvent}, c.Ends holding (fun _ => Settled) .none →
      (c.bind fun _ => (ret () : Handler Unit)).Ends holding (fun _ => Settled) .none :=
    fun hc => ends_bind (hc.mono fun r s hs => by cases r <;> exact hs)
  simp only [handlerPrograms, List.mem_cons, List.not_mem_nil, or_false] at h
  rcases h with rfl | rfl | rfl | rfl
  · exact Handler.websocketEndpoint_ends
  · exact hquery (Handler.query_ends _ _)
  · exact hquery (Handler.query_ends _ _)
  · exact Handler.ready_ends

/-- One handler changes, and with it what it adds to the count. -/
theorem countedBy_set {i : ℕ} {h b : Running} {a : PyStr → Option ℕ}
    (hi : g.handlers[i]? = some h) (u : PyStr) :
    Process.countedBy ⟨a, g.handlers.set i b⟩ u +
        (if h.held.counted && h.user = u then 1 else 0) =
      g.countedBy u + (if b.held.counted && b.user = u then 1 else 0) := by
  obtain ⟨hlt, hget⟩ := List.getElem?_eq_some_iff.mp hi
  have hcount := List.countP_set (p := fun h : Running => h.held.counted && h.user = u)
    (a := b) hlt
  have hmem : h ∈ g.handlers := List.mem_of_getElem? hi
  have hle : (if h.held.counted && h.user = u then 1 else 0) ≤ g.countedBy u := by
    split_ifs with hcounted
    · exact List.countP_pos_iff.mpr ⟨h, hmem, hcounted⟩
    · exact Nat.zero_le _
  rw [hget] at hcount
  unfold Process.countedBy at hle ⊢
  rw [hcount]
  omega

theorem CountsOk.set {i : ℕ} {h b : Running} (hg : CountsOk g) (hi : g.handlers[i]? = some h)
    (hcounted : b.held.counted = h.held.counted) (huser : b.user = h.user) :
    CountsOk { g with handlers := g.handlers.set i b } := by
  intro u
  have hset := countedBy_set (b := b) (a := g.active) hi u
  rw [hcounted, huser] at hset
  rw [Nat.add_right_cancel hset]
  exact hg u

/-- The number stored for a user follows what one of his handlers adds. -/
theorem CountsOk.update {i m : ℕ} {h b : Running} (hg : CountsOk g)
    (hi : g.handlers[i]? = some h) (huser : b.user = h.user)
    (hm : m + (if h.held.counted then 1 else 0) =
      g.countedBy h.user + (if b.held.counted then 1 else 0)) :
    CountsOk ⟨Function.update g.active h.user (if m = 0 then none else some m),
      g.handlers.set i b⟩ := by
  intro u
  have hset := countedBy_set (b := b)
    (a := Function.update g.active h.user (if m = 0 then none else some m)) hi u
  rw [huser] at hset
  by_cases hu : h.user = u
  · subst hu
    simp only [decide_true, Bool.and_true] at hset
    rw [Nat.add_right_cancel (hset.trans hm.symm)]
    exact Function.update_self ..
  · simp only [hu, decide_false, Bool.and_false, Bool.false_eq_true, if_false] at hset
    rw [Nat.add_right_cancel hset]
    exact (Function.update_of_ne (Ne.symm hu) ..).trans (hg u)

theorem CountsOk.act {i : ℕ} {h : Running} {effect : Sharing} (hg : CountsOk g)
    (hi : g.handlers[i]? = some h) (hlegal : holding.legal effect h.held) :
    CountsOk (g.act i effect) := by
  unfold Process.act
  rw [hi]
  cases effect with
  | openWriter | closeWriter => exact hg.set hi rfl rfl
  | countUser =>
    have hfalse : h.held.counted = false := hlegal
    have hget : (g.active h.user).getD 0 = g.countedBy h.user := by
      rw [hg h.user]
      split_ifs with hzero
      · exact hzero.symm
      · rfl
    have hok := hg.update (m := g.countedBy h.user + 1)
      (b := { h with held := holding.apply .countUser h.held }) hi rfl (by rw [hfalse]; rfl)
    rw [if_neg (Nat.succ_ne_zero _), ← hget] at hok
    exact hok
  | uncountUser =>
    have htrue : h.held.counted = true := hlegal
    have hpos : 0 < g.countedBy h.user :=
      List.countP_pos_iff.mpr ⟨h, List.mem_of_getElem? hi, by simp [htrue]⟩
    have hget : max ((g.active h.user).getD 1 - 1) 0 = g.countedBy h.user - 1 := by
      rw [hg h.user, if_neg hpos.ne', Option.getD_some, Nat.max_zero]
    have hok := hg.update (m := g.countedBy h.user - 1)
      (b := { h with held := holding.apply .uncountUser h.held }) hi rfl
      (by rw [htrue]; exact Nat.sub_add_cancel hpos)
    rw [← hget] at hok
    exact hok

/-- What stays of the gateway while handler `i` runs. -/
def Around (g : Process) (i : ℕ) (h : Running) (g' : Process) : Prop :=
  CountsOk g' ∧ ∃ held, g'.handlers = g.handlers.set i { h with held := held }

/-- What handler `i` holds. -/
def heldBy (i : ℕ) (g : Process) : Held := (g.handlers[i]?.map Running.held).getD .none

theorem Around.act {i : ℕ} {h : Running} {effect : Sharing} (hi : g.handlers[i]? = some h)
    (hg' : Around g i h g') (hlegal : holding.legal effect (heldBy i g')) :
    Around g i h (g'.act i effect) ∧
      heldBy i (g'.act i effect) = holding.apply effect (heldBy i g') := by
  obtain ⟨hcounts, held, hhandlers⟩ := hg'
  obtain ⟨hlt, -⟩ := List.getElem?_eq_some_iff.mp hi
  have hi' : g'.handlers[i]? = some { h with held := held } := by
    rw [hhandlers, List.getElem?_set_self hlt]
  have hheld : heldBy i g' = held := by
    rw [heldBy, hi']
    rfl
  rw [hheld] at hlegal ⊢
  have hact : (g'.act i effect).handlers =
      g.handlers.set i { h with held := holding.apply effect held } := by
    unfold Process.act
    rw [hi']
    show g'.handlers.set i _ = _
    rw [hhandlers, List.set_set]
  refine ⟨⟨hcounts.act hi' hlegal, _, hact⟩, ?_⟩
  rw [heldBy, hact, List.getElem?_set_self hlt]
  rfl

theorem ProcessOk.start {user : PyStr} {program : Handler Unit} (hg : ProcessOk g)
    (hprogram : program ∈ handlerPrograms) : ProcessOk (g.start user program) := by
  refine ⟨fun h hmem => ?_, fun u => ?_⟩
  · rcases List.mem_append.mp hmem with hmem | hmem
    · exact hg.ends h hmem
    · obtain rfl := List.mem_singleton.mp hmem
      exact ends_of_mem hprogram
  · have hcount : (g.start user program).countedBy u = g.countedBy u := by
      unfold Process.countedBy Process.start
      rw [List.countP_append]
      rfl
    rw [hcount]
    exact hg.counts u

/-- **A step of a handler, from one wait to the next.** -/
theorem ProcessOk.resume {i : ℕ} {r : Except Exn Answer} (hg : ProcessOk g)
    (hresume : g.resume i r = some g') : ProcessOk g' := by
  unfold Process.resume at hresume
  obtain ⟨⟨user, program, held₀⟩, hi, hresume⟩ := Option.bind_eq_some_iff.mp hresume
  have hends := hg.ends _ (List.mem_of_getElem? hi)
  obtain ⟨hlt, -⟩ := List.getElem?_eq_some_iff.mp hi
  cases program with
  | ret _ | raise _ | perform _ _ => cases hresume
  | await point rest =>
    obtain rfl := Option.some.inj hresume
    have haround : Around g i ⟨user, await point rest, held₀⟩ { g with
        handlers := g.handlers.set i ⟨user, await point rest, holding.answer point r held₀⟩ } :=
      ⟨hg.counts.set hi rfl rfl, _, rfl⟩
    have hview : heldBy i { g with
        handlers := g.handlers.set i ⟨user, await point rest, holding.answer point r held₀⟩ } =
        holding.answer point r held₀ := by
      rw [heldBy, List.getElem?_set_self hlt]
      rfl
    obtain ⟨⟨hcounts, held, hhandlers⟩, hends'⟩ := Ends.drive
      (fun t effect ht hlegal => Around.act hi ht hlegal) (hview ▸ hends.answer r) haround
    simp only
    generalize (rest r).drive (Process.act i) { g with
      handlers := g.handlers.set i ⟨user, await point rest, holding.answer point r held₀⟩ } = d
      at hcounts hhandlers hends' ⊢
    have hi' : d.1.handlers[i]? = some ⟨user, await point rest, held⟩ := by
      rw [hhandlers, List.getElem?_set_self hlt]
    have hheld : heldBy i d.1 = held := by
      rw [heldBy, hi']
      rfl
    have hmodify : d.1.handlers.modify i (fun h => { h with program := d.2 }) =
        d.1.handlers.set i ⟨user, d.2, held⟩ := by
      rw [List.modify_eq_set_getElem?, hi']
      rfl
    rw [hheld] at hends'
    rw [hmodify]
    refine ⟨fun h' hmem => ?_, hcounts.set hi' rfl rfl⟩
    rw [hhandlers, List.set_set] at hmem
    rcases List.mem_or_eq_of_mem_set hmem with hmem | rfl
    · exact hg.ends h' hmem
    · exact hends'

theorem processOk (h : Transition.Reachable process g) : ProcessOk g := by
  refine Transition.Reachable.invariant ?_ ?_ h
  · rintro g ⟨hactive, hhandlers⟩
    refine ⟨fun h hmem => ?_, fun u => ?_⟩
    · rw [hhandlers] at hmem
      cases hmem
    · rw [hactive u, Process.countedBy, hhandlers]
      rfl
  · intro g g' _ hg hstep
    cases hstep with
    | start user hprogram => exact hg.start hprogram
    | resume i r hresume => exact hg.resume hresume

/-- **What is released.**  In every reachable state of the gateway, with any handlers for any users
and any exception or cancellation at any wait:

* `active_gateway_users` counts, for each user, the sessions that have counted him and not yet
  counted him back;
* a handler that is over has closed its connection and counted its user back if and only if no
  exception struck it where none is waited for;
* and so, for a user all of whose handlers are over, he is absent from `active_gateway_users` and no
  connection of his is open if and only if none of them was struck so. -/
theorem released_iff (hg : Transition.Reachable process g) :
    (∀ u, (g.active u).getD 0 = g.countedBy u) ∧
    (∀ h ∈ g.handlers, h.program.isOver = true →
      (h.held.writer = false ∧ h.held.counted = false ↔ h.held.harmed = false)) ∧
    ∀ u, (∀ h ∈ g.handlers, h.user = u → h.program.isOver = true) →
      (g.active u = none ∧ (∀ h ∈ g.handlers, h.user = u → h.held.writer = false) ↔
        ∀ h ∈ g.handlers, h.user = u → h.held.harmed = false) := by
  have hok := processOk hg
  have hsettled : ∀ h ∈ g.handlers, h.program.isOver = true → Settled h.held := by
    intro h hmem hover
    obtain ⟨-, hs⟩ := (hok.ends h hmem).of_isOver hover
    exact hs
  refine ⟨fun u => ?_, fun h hmem hover => ?_, fun u hover => ⟨?_, fun hquiet => ⟨?_, ?_⟩⟩⟩
  · rw [hok.counts u]
    split_ifs with hzero
    · exact hzero.symm
    · rfl
  · rcases hsettled h hmem hover with ⟨hharmed, hwriter, hcounted⟩ | ⟨hharmed, hwriter⟩
    · exact iff_of_true ⟨hwriter, hcounted⟩ hharmed
    · refine iff_of_false (fun hfree => ?_) (fun hquiet => ?_)
      · rw [hwriter] at hfree
        cases hfree.1
      · rw [hharmed] at hquiet
        cases hquiet
  · rintro ⟨-, hclosed⟩ h hmem hu
    rcases hsettled h hmem (hover h hmem hu) with ⟨hharmed, -⟩ | ⟨-, hwriter⟩
    · exact hharmed
    · rw [hclosed h hmem hu] at hwriter
      cases hwriter
  · rw [hok.counts u, if_pos]
    refine List.countP_eq_zero.mpr fun h hmem hcounted => ?_
    rw [Bool.and_eq_true, decide_eq_true_eq] at hcounted
    rcases hsettled h hmem (hover h hmem hcounted.2) with ⟨-, -, hfalse⟩ | ⟨hharmed, -⟩
    · rw [hfalse] at hcounted
      cases hcounted.1
    · rw [hquiet h hmem hcounted.2] at hharmed
      cases hharmed
  · intro h hmem hu
    rcases hsettled h hmem (hover h hmem hu) with ⟨-, hwriter, -⟩ | ⟨hharmed, -⟩
    · exact hwriter
    · rw [hquiet h hmem hu] at hharmed
      cases hharmed

/-! ## Two runs -/

/-- The gateway has just started. -/
def idle : Process := ⟨fun _ => none, []⟩

/-- One handler is started, and gets answers until it is over. -/
def oneHandler (program : Handler Unit) (answers : List (Except Exn Answer)) : Option Process :=
  answers.foldlM (fun g r => g.resume 0 r) (idle.start (py "alice") program)

theorem reachable_oneHandler {program : Handler Unit} {answers : List (Except Exn Answer)}
    (hprogram : program ∈ handlerPrograms) (h : oneHandler program answers = some g) :
    Transition.Reachable process g := by
  have hrun : ∀ {answers : List (Except Exn Answer)} {g₀ : Process},
      Transition.Reachable process g₀ → answers.foldlM (fun g r => g.resume 0 r) g₀ = some g →
      Transition.Reachable process g := by
    intro answers
    induction answers with
    | nil =>
      intro g₀ hg₀ hfold
      rwa [← Option.some.inj hfold]
    | cons r answers ih =>
      intro g₀ hg₀ hfold
      rw [List.foldlM_cons] at hfold
      obtain ⟨g₁, hresume, hrest⟩ := Option.bind_eq_some_iff.mp hfold
      exact ih (hg₀.step (.resume 0 r hresume)) hrest
  exact hrun (.step (.init ⟨fun _ => rfl, rfl⟩) (.start _ hprogram)) h

/-- The answers up to the registration. -/
def registeredAnswers : List (Except Exn Answer) :=
  [.ok .done, .ok .done, .ok (.frame ⟨ServerMsgType.ok.toByte, ascii "registered"⟩)]

/-- The browser goes away in a session: everything is released. -/
theorem released_iff_session : ∃ g, Transition.Reachable process g ∧ g.handlers.length = 1 ∧
    g.active (py "alice") = none ∧ ∀ h ∈ g.handlers, h.held.writer = false := by
  obtain ⟨g, hrun⟩ : ∃ g, oneHandler .websocketEndpoint (registeredAnswers ++
      [.ok .done, .ok .done, .error .webSocketDisconnect, .ok .done]) = some g := ⟨_, rfl⟩
  have hreach := reachable_oneHandler (by simp [handlerPrograms]) hrun
  obtain rfl := Option.some.inj hrun
  have hfree := ((released_iff hreach).2.2 (py "alice") fun h hmem _ => by
    obtain rfl := List.mem_singleton.mp hmem
    rfl).mpr fun h hmem _ => by
    obtain rfl := List.mem_singleton.mp hmem
    rfl
  refine ⟨_, hreach, rfl, hfree.1, fun h hmem => hfree.2 h hmem ?_⟩
  obtain rfl := List.mem_singleton.mp hmem
  rfl

/-- The browser goes away while it is told `ready`: the connection stays open and the user counted. -/
theorem session_never_released : ∃ g, Transition.Reachable process g ∧
    (∀ h ∈ g.handlers, h.program.isOver = true) ∧ g.active (py "alice") = some 1 ∧
    ∃ h ∈ g.handlers, h.user = py "alice" ∧ h.held.writer = true := by
  obtain ⟨g, hrun⟩ : ∃ g, oneHandler .websocketEndpoint (registeredAnswers ++
      [.ok .done, .error .webSocketDisconnect]) = some g := ⟨_, rfl⟩
  have hreach := reachable_oneHandler (by simp [handlerPrograms]) hrun
  obtain rfl := Option.some.inj hrun
  refine ⟨_, hreach, fun h hmem => ?_, rfl, _, List.mem_singleton_self _, rfl, rfl⟩
  obtain rfl := List.mem_singleton.mp hmem
  rfl

end Gateway
end ChannelWire
