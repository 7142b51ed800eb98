import ChannelWire.Core.Visitor
import ChannelWire.Gateway.Decoding
import ChannelWire.Gateway.Identity
import ChannelWire.Gateway.Releases

/-!
# Queries of the core

`GET /channels` and `GET /core-stats` register with the core a second time, under the name of their
user.  The handlers are those of `Releases`; here their waits end as the core lets them: `core_read`
returns the next frame of the connection, and a wait raises once the core has closed it.

A query gets its answer if its connection is `Core.Undisturbed`: nobody else has the name, and no
direct message comes before the answer (`queries_answered`).  A session of the user has the name.

## How the result is put together

The handler is a program that waits, so what it has done is its `Progress`: how far it is in the
script of `HELLO`, the query and `QUIT`, what it wrote and what it read.

- `queryOk` is the invariant of a run whose steps all meet `LeavesQuery`: the core has handled a
  beginning of what was written and enqueued the answers to it, and the program stands where these
  answers lead.  `QueryOk.core`, `QueryOk.write`, `QueryOk.read` and `QueryOk.resume` keep it, one
  for each thing that can happen.
- `QueryReachable.onScript` says of every run, disturbed or not, that a query writes nothing but its
  script (`handler_onScript`), which is what the other connections see of it.
- `queries_answered` reads off the invariant that a query that is over has got the answer the core
  had for it in one of the states since it was asked, and `query_refused_beside_session` shows the
  refusal beside a session of the same user.
-/

namespace ChannelWire
namespace Gateway

open Coroutine JsonText

/-- The endpoints that ask the core. -/
inductive QueryKind where
  | channels | coreStats

namespace QueryKind

/-- The query they send. -/
def type : QueryKind → ClientMsgType
  | channels => .list
  | coreStats => .stats

def handler : QueryKind → Handler GatewayEvent
  | channels => Handler.channels
  | coreStats => Handler.coreStats

/-- What the core's state is to be answered with. -/
def answer (core : Core.Server) : QueryKind → GatewayEvent
  | channels => .channels (core.channels.map asText)
  | coreStats => .coreStats (numbers (counters core))

/-- The frames of a query of a user. -/
def visitor (u : Username) (kind : QueryKind) : Core.Visitor where
  name := u.bytes
  hello := helloFrame u
  type := kind.type
  hello_type := rfl
  hello_name := readName_helloFrame u
  hello_length := length_helloFrame_le u
  type_mem :=
    match kind with
    | channels => .inl rfl
    | coreStats => .inr rfl

end QueryKind

namespace Handler

variable {α β : Type}

/-- What the handler waits for. -/
def point : Handler α → Option Point
  | .await point _ => some point
  | _ => none

/-- The handler at its next wait or its end, when this wait has ended. -/
def resumed : Handler α → Except Exn Answer → Handler α
  | .await _ rest, r => ((rest r).drive (fun t _ => t) ()).2
  | c, _ => c

/-- The exception that it has raised. -/
def raised : Handler α → Option Exn
  | .raise e => some e
  | _ => none

end Handler

/-! ## Runs -/

/-- The core, a query, and its connection. -/
structure QueryState where
  core : Core.Server
  program : Handler GatewayEvent
  conn : Option ℕ
  /-- What the handler has written to the core, and what it has read. -/
  written : List Frame
  reads : List Frame
  /-- The states of the core since the connection was opened. -/
  past : List Core.Server

/-- The frame that `core_send` writes. -/
def commandFrame (u : Username) : ClientMsgType → Frame
  | .hello => helloFrame u
  | type => ⟨type.toByte, []⟩

namespace QueryState

/-- The frame `core_read` returns next, if the core has sent it. -/
def nextFrame (s : QueryState) (k : ℕ) : Option Frame :=
  (coreRead ((Core.sentTo k s.core.trace).drop (pyFraming.encodeAll s.reads).length)).map Prod.fst

end QueryState

/-- How a wait ends, and what the state is then. -/
inductive Resumes (u : Username) (s : QueryState) :
    Point → Except Exn Answer → QueryState → Prop where
  /-- The core has accepted a new connection. -/
  | openConnection {i : Core.Slot} {k : ℕ} : s.conn = none → (s.core.clients i).Live →
      (s.core.clients i).conn = k → (∀ e ∈ s.core.trace, e.Mentions k → e = .accepted k) →
      Resumes u s .openConnection (.ok .done) { s with conn := some k, past := [s.core] }
  | coreSend (type : ClientMsgType) : Resumes u s (.coreSend type) (.ok .done)
      { s with written := s.written ++ [commandFrame u type] }
  | coreRead {k : ℕ} {frame : Frame} : s.conn = some k → s.nextFrame k = some frame →
      Resumes u s .coreRead (.ok (.frame frame)) { s with reads := s.reads ++ [frame] }
  | sendQuit : Resumes u s .sendQuit (.ok .done)
      { s with written := s.written ++ [commandFrame u .quit] }
  | waitClosed : Resumes u s .waitClosed (.ok .done) s
  /-- The core has closed the connection, and there is nothing left to read. -/
  | incompleteRead {k : ℕ} {reason : Core.Reason} : s.conn = some k →
      .closed k reason ∈ s.core.trace → s.nextFrame k = none →
      Resumes u s .coreRead (.error .incompleteRead) s
  /-- The core has closed the connection. -/
  | connectionError {k : ℕ} {reason : Core.Reason} {point : Point} : s.conn = some k →
      .closed k reason ∈ s.core.trace → point = .sendQuit ∨ (∃ type, point = .coreSend type) →
      Resumes u s point (.error .connection) s

/-- What happens: a step of the core, or the end of a wait. -/
inductive QueryEvent where
  | core (t : Core.Server)
  | resume

/-- The steps.  The core receives what the query has written. -/
inductive QueryStep (u : Username) : QueryState → QueryEvent → QueryState → Prop where
  | core {s : QueryState} {t : Core.Server} : Core.Step s.core t →
      (∀ k ∈ s.conn, Core.receivedBy k t.trace <+: cwFraming.encodeAll s.written) →
      QueryStep u s (.core t) { s with core := t, past := s.past ++ [t] }
  | resume {s t : QueryState} {point : Point} {r : Except Exn Answer} :
      s.program.point = some point → Resumes u s point r t →
      QueryStep u s .resume { t with program := s.program.resumed r }

/-- A query begins in any state of the core. -/
def QueryStart (kind : QueryKind) (s : QueryState) : Prop :=
  Core.Reachable s.core ∧ s.program = kind.handler ∧ s.conn = none ∧ s.written = [] ∧
    s.reads = [] ∧ s.past = []

/-- The runs of a query whose events all meet a condition. -/
abbrev QueryReachable (u : Username) (kind : QueryKind)
    (admits : QueryState → QueryEvent → Prop) (s : QueryState) : Prop :=
  Transition.Reachable (.ofEvents (QueryStart kind) (QueryStep u) admits) s

/-- No step of the core disturbs the query. -/
def LeavesQuery (u : Username) (kind : QueryKind) (s : QueryState) : QueryEvent → Prop
  | .core t => ∀ k ∈ s.conn, Core.Undisturbed (kind.visitor u) k s.core t
  | .resume => True

variable {u : Username} {kind : QueryKind} {s t : QueryState} {e : QueryEvent}
  {admits : QueryState → QueryEvent → Prop}

theorem QueryReachable.core (h : QueryReachable u kind admits s) : Core.Reachable s.core := by
  refine Transition.Reachable.invariant (P := fun s => Core.Reachable s.core) ?_ ?_ h
  · rintro s ⟨hcore, -⟩
    exact hcore
  · rintro s t - hs ⟨e, -, hst⟩
    cases hst with
    | core hcore _ => exact .step hs hcore
    | resume _ hresumes => cases hresumes <;> exact hs

/-! ## The waits of a query -/

/-- The end of a query whose answer has been read. -/
def leave (event : GatewayEvent) : Handler GatewayEvent :=
  ((wait .sendQuit).bind fun _ => (emit .closeWriter).bind fun _ =>
    (wait .waitClosed).bind fun _ => ret ()).bind fun _ => ret event

/-- The handler after some answers. -/
def QueryKind.after (kind : QueryKind) (answers : List (Except Exn Answer)) :
    Handler GatewayEvent := answers.foldl Handler.resumed kind.handler

/-- The answers until the query is sent. -/
def openingAnswers : List (Except Exn Answer) :=
  [.ok .done, .ok .done, .ok (.frame Core.greeting), .ok .done]

/-- What is left of a query when its answer is read. -/
def Handler.answered (isAnswer : GatewayEvent → Bool) (frame : Frame) : Handler GatewayEvent :=
  tryFinally
    (match gatewayEvent frame with
      | .error _ => raise .other
      | .ok event => if isAnswer event then ret event else raise (.http 502))
    ((wait .sendQuit).bind fun _ =>
      (emit .closeWriter).bind fun _ => (wait .waitClosed).bind fun _ => ret ())

/-- The answer that was read is an answer of the kind. -/
theorem resumed_of_answer {frame : Frame} {core : Core.Server}
    (h : gatewayEvent frame = .ok (kind.answer core)) :
    (kind.after openingAnswers).resumed (.ok (.frame frame)) = leave (kind.answer core) := by
  cases kind with
  | channels =>
    show ((Handler.answered _ frame).drive (fun t _ => t) ()).2 = _
    unfold Handler.answered
    rw [h]
    rfl
  | coreStats =>
    show ((Handler.answered _ frame).drive (fun t _ => t) ()).2 = _
    unfold Handler.answered
    rw [h]
    rfl

theorem point_after : (kind.after []).point = some .openConnection ∧
    (kind.after [.ok .done]).point = some (.coreSend .hello) ∧
    (kind.after [.ok .done, .ok .done]).point = some .coreRead ∧
    (kind.after [.ok .done, .ok .done, .ok (.frame Core.greeting)]).point =
      some (.coreSend kind.type) ∧
    (kind.after openingAnswers).point = some .coreRead := by
  cases kind <;> exact ⟨rfl, rfl, rfl, rfl, rfl⟩

/-- The answer of the core is decoded to what is asked for. -/
theorem gatewayEvent_queryAnswer {core : Core.Server} {answer : ServerMsgType × Bytes}
    (hc : Core.ChannelsOk core) (h : Core.queryAnswer core kind.type = some answer) :
    gatewayEvent ⟨answer.1.toByte, answer.2⟩ = .ok (kind.answer core) := by
  unfold Core.queryAnswer at h
  cases kind with
  | channels =>
    obtain ⟨payload, hlines, rfl⟩ := Option.map_eq_some_iff.mp h
    exact (decodes_list (k := 0) hc hlines).list rfl
  | coreStats =>
    obtain ⟨-, hanswer⟩ := Option.ite_none_right_eq_some.mp h
    rw [← Option.some.inj hanswer]
    exact (decodes_stats (s := core) (k := 0)).stats rfl

/-! ## What a query goes through -/

/-- How far a query is that nothing disturbs, from its handler, what it wrote and what it read. -/
inductive Progress (u : Username) (kind : QueryKind) (past : List Core.Server) :
    Handler GatewayEvent → List Frame → List Frame → Prop where
  | opened : Progress u kind past (kind.after [.ok .done]) [] []
  | greets : Progress u kind past (kind.after [.ok .done, .ok .done]) [helloFrame u] []
  | registered : Progress u kind past
      (kind.after [.ok .done, .ok .done, .ok (.frame Core.greeting)]) [helloFrame u] [Core.greeting]
  | asks : Progress u kind past (kind.after openingAnswers) [helloFrame u, (kind.visitor u).query]
      [Core.greeting]
  | answered {core : Core.Server} (reads : List Frame) : core ∈ past →
      Progress u kind past (leave (kind.answer core)) [helloFrame u, (kind.visitor u).query] reads
  | leaves {core : Core.Server} (reads : List Frame) : core ∈ past →
      Progress u kind past ((leave (kind.answer core)).resumed (.ok .done)) (kind.visitor u).script
        reads
  | ended {core : Core.Server} (reads : List Frame) : core ∈ past →
      Progress u kind past (ret (kind.answer core)) (kind.visitor u).script reads

/-- **What holds of a query with a connection that nothing disturbs.** -/
structure QueryOk (u : Username) (kind : QueryKind) (k : ℕ) (s : QueryState) : Prop where
  conn : s.conn = some k
  current : s.core ∈ s.past
  received : Core.receivedBy k s.core.trace <+: cwFraming.encodeAll s.written
  reads : s.reads <+: Core.enqueuedTo k s.core.trace
  visit : Core.Visit (kind.visitor u)
    (fun f => ∃ core ∈ s.past, gatewayEvent f = .ok (kind.answer core)) k s.core
  progress : Progress u kind s.past s.program s.written s.reads

variable {k : ℕ} {past : List Core.Server} {program : Handler GatewayEvent}
  {written reads : List Frame}

theorem Progress.mono (h : Progress u kind past program written reads) (more : List Core.Server) :
    Progress u kind (past ++ more) program written reads := by
  cases h with
  | opened => exact .opened
  | greets => exact .greets
  | registered => exact .registered
  | asks => exact .asks
  | answered _ hcore => exact .answered _ (List.mem_append_left _ hcore)
  | leaves _ hcore => exact .leaves _ (List.mem_append_left _ hcore)
  | ended _ hcore => exact .ended _ (List.mem_append_left _ hcore)

theorem Progress.ne_raise (h : Progress u kind past program written reads) {e : Exn}
    (he : program = raise e) : False := by
  cases h with
  | opened | greets | registered | asks => cases kind <;> cases he
  | answered _ _ | leaves _ _ | ended _ _ => cases he

theorem Progress.of_ret (h : Progress u kind past program written reads) {event : GatewayEvent}
    (hevent : program = ret event) : ∃ core ∈ past, event = kind.answer core := by
  cases h with
  | opened | greets | registered | asks => cases kind <;> cases hevent
  | answered _ _ | leaves _ _ => cases hevent
  | @ended core _ hcore => exact ⟨core, hcore, (Coroutine.ret.inj hevent).symm⟩

theorem Progress.written_isPrefix (h : Progress u kind past program written reads) :
    written <+: (kind.visitor u).script := by
  cases h with
  | opened => exact List.nil_prefix
  | greets | registered => exact ⟨[_, _], rfl⟩
  | asks | answered _ _ => exact ⟨[_], rfl⟩
  | leaves _ _ | ended _ _ => exact List.prefix_rfl

/-- A frame that is enqueued and sent is the next one. -/
theorem exists_next {core : Core.Server} {reads : List Frame} (hcore : Core.OutputOk core)
    (hreads : reads <+: Core.enqueuedTo k core.trace)
    (hsent : Core.sentTo k core.trace = pyFraming.encodeAll (Core.enqueuedTo k core.trace))
    (h : reads.length < (Core.enqueuedTo k core.trace).length) :
    ∃ frame, (coreRead ((Core.sentTo k core.trace).drop (pyFraming.encodeAll reads).length)).map
      Prod.fst = some frame := by
  obtain ⟨rest, hrest⟩ := hreads
  have hsmall := hcore.small k
  rw [hsent]
  rw [← hrest] at h hsmall ⊢
  cases rest with
  | nil =>
    rw [List.append_nil] at h
    exact absurd h (lt_irrefl _)
  | cons frame rest =>
    have hvalid : pyFraming.Valid frame := pyFraming_valid.mpr
      ((hsmall frame (List.mem_append_right _ List.mem_cons_self)).trans (by decide))
    rw [StreamDecoder.Codec.encodeAll_append, List.drop_left, StreamDecoder.Codec.encodeAll_cons,
      coreRead_eq, pyFraming.head_encode hvalid]
    exact ⟨frame, rfl⟩

namespace QueryOk

/-- What the core handled of a query is what the query wrote, or less. -/
theorem handled_isPrefix (hs : QueryOk u kind k s) (hr : Core.Reachable s.core) :
    Core.handledBy k s.core.trace <+: s.written :=
  ((Core.inputOk hr).handled k).trans (StreamDecoder.Codec.parse_prefix
    (fun f hf => (kind.visitor u).valid_script f (hs.progress.written_isPrefix.subset hf))
    hs.received)

/-- The core does not close the connection of a query that has not written its `QUIT`. -/
theorem not_closed (hs : QueryOk u kind k s) (hr : Core.Reachable s.core)
    (hshort : s.written.length < 3) (reason : Core.Reason) :
    .closed k reason ∉ s.core.trace := by
  intro hclosed
  cases hs.visit with
  | here hl hk _ => exact (Core.numbered hr.moveReachable).closed k reason hclosed _ hl hk
  | gone _ hhandled _ _ =>
    have hle := (hs.handled_isPrefix hr).length_le
    rw [hhandled] at hle
    exact absurd hle (not_le.mpr hshort)

/-- **A step of the core.** -/
theorem core (hs : QueryOk u kind k s) (hr : Core.Reachable s.core) {t : Core.Server}
    (h : Core.Step s.core t) (hu : Core.Undisturbed (kind.visitor u) k s.core t)
    (hreceived : Core.receivedBy k t.trace <+: cwFraming.encodeAll s.written) :
    QueryOk u kind k { s with core := t, past := s.past ++ [t] } := by
  obtain ⟨es, hes⟩ := h.trace_prefix
  have hscript : Core.receivedBy k t.trace <+: cwFraming.encodeAll (kind.visitor u).script := by
    obtain ⟨rest, hrest⟩ := hs.progress.written_isPrefix
    rw [← hrest, StreamDecoder.Codec.encodeAll_append]
    exact hreceived.trans (List.prefix_append ..)
  refine ⟨hs.conn, List.mem_concat_self, hreceived, ?_, ?_, hs.progress.mono [t]⟩
  · rw [← hes, Core.enqueuedTo, List.flatMap_append]
    exact hs.reads.trans (List.prefix_append ..)
  · refine hs.visit.step hr h hu hscript (fun answer hanswer => ?_) ?_
    · exact ⟨s.core, List.mem_append_left _ hs.current,
        gatewayEvent_queryAnswer (Core.channelsOk hr.moveReachable) hanswer⟩
    · rintro f ⟨core, hcore, hevent⟩
      exact ⟨core, List.mem_append_left _ hcore, hevent⟩

/-- Something is written. -/
theorem write (hs : QueryOk u kind k s) {frame : Frame} {program : Handler GatewayEvent}
    (hprogress : Progress u kind s.past program (s.written ++ [frame]) s.reads) :
    QueryOk u kind k { s with written := s.written ++ [frame], program := program } := by
  refine ⟨hs.conn, hs.current, ?_, hs.reads, hs.visit, hprogress⟩
  rw [StreamDecoder.Codec.encodeAll_append]
  exact hs.received.trans (List.prefix_append ..)

/-- A frame is read. -/
theorem read (hs : QueryOk u kind k s) (hr : Core.Reachable s.core) {frame : Frame}
    (hnext : s.nextFrame k = some frame) {program : Handler GatewayEvent}
    (hprogress : (Core.enqueuedTo k s.core.trace)[s.reads.length]? = some frame →
      Progress u kind s.past program s.written (s.reads ++ [frame])) :
    QueryOk u kind k { s with reads := s.reads ++ [frame], program := program } := by
  have hreads := next_isPrefix (Core.outputOk hr.moveReachable) hs.reads hnext
  exact ⟨hs.conn, hs.current, hs.received, hreads, hs.visit,
    hprogress (Core.getElem?_of_concat_isPrefix hreads)⟩

/-- **The end of a wait.** -/
theorem resume (hs : QueryOk u kind k s) (hr : Core.Reachable s.core) {point : Point}
    {r : Except Exn Answer} (hpoint : s.program.point = some point) (h : Resumes u s point r t) :
    QueryOk u kind k { t with program := s.program.resumed r } := by
  obtain ⟨core, program, conn, written, reads, past⟩ := s
  have hconn : conn = some k := hs.conn
  subst hconn
  have hprogress : Progress u kind past program written reads := hs.progress
  obtain ⟨-, hsend, hread, hask, hwait⟩ := @point_after kind
  -- nothing is closed before the `QUIT`
  have hopen : ∀ {reason : Core.Reason}, written.length < 3 → .closed k reason ∉ core.trace :=
    fun hshort => hs.not_closed hr hshort _
  cases hprogress with
  | opened =>
    obtain rfl := Option.some.inj (hsend.symm.trans hpoint)
    cases h with
    | coreSend => exact hs.write .greets
    | connectionError hk hclosed _ =>
      obtain rfl := Option.some.inj hk
      exact absurd hclosed (hopen (Nat.succ_pos 2))
  | greets =>
    obtain rfl := Option.some.inj (hread.symm.trans hpoint)
    cases h with
    | coreRead hk hnext =>
      obtain rfl := Option.some.inj hk
      refine hs.read hr hnext fun hframe => ?_
      obtain rfl := hs.visit.told.1 _ hframe
      exact .registered
    | incompleteRead hk hclosed _ =>
      obtain rfl := Option.some.inj hk
      exact absurd hclosed (hopen (Nat.one_lt_succ_succ 1))
    | connectionError _ _ hwhere => rcases hwhere with hquit | ⟨_, hcommand⟩ <;> contradiction
  | registered =>
    obtain rfl := Option.some.inj (hask.symm.trans hpoint)
    cases h with
    | coreSend =>
      refine hs.write ?_
      have hquery : commandFrame u kind.type = (kind.visitor u).query := by cases kind <;> rfl
      rw [hquery]
      exact .asks
    | connectionError hk hclosed _ =>
      obtain rfl := Option.some.inj hk
      exact absurd hclosed (hopen (Nat.one_lt_succ_succ 1))
  | asks =>
    obtain rfl := Option.some.inj (hwait.symm.trans hpoint)
    cases h with
    | coreRead hk hnext =>
      obtain rfl := Option.some.inj hk
      refine hs.read hr hnext fun hframe => ?_
      obtain ⟨core', hcore, hevent⟩ := hs.visit.told.2 _ hframe
      rw [resumed_of_answer hevent]
      exact .answered _ hcore
    | incompleteRead hk hclosed _ =>
      obtain rfl := Option.some.inj hk
      exact absurd hclosed (hopen (Nat.lt_succ_self 2))
    | connectionError _ _ hwhere => rcases hwhere with hquit | ⟨_, hcommand⟩ <;> contradiction
  | answered reads hcore =>
    obtain rfl := Option.some.inj hpoint
    cases h with
    | sendQuit => exact hs.write (.leaves _ hcore)
    | connectionError hk hclosed _ =>
      obtain rfl := Option.some.inj hk
      exact absurd hclosed (hopen (Nat.lt_succ_self 2))
  | leaves reads hcore =>
    obtain rfl := Option.some.inj hpoint
    cases h with
    | waitClosed => exact ⟨rfl, hs.current, hs.received, hs.reads, hs.visit, .ended _ hcore⟩
    | connectionError _ _ hwhere => rcases hwhere with hquit | ⟨_, hcommand⟩ <;> contradiction
  | ended reads hcore => cases hpoint

/-- **The answer comes.**  When the core has handled all that was written, and sent all that it
enqueued, the frame that the query waits for is there. -/
theorem exists_nextFrame (hs : QueryOk u kind k s) (hr : Core.Reachable s.core)
    (hpoint : s.program.point = some .coreRead)
    (hhandled : Core.handledBy k s.core.trace = s.written)
    (hsent : Core.sentTo k s.core.trace = pyFraming.encodeAll (Core.enqueuedTo k s.core.trace)) :
    ∃ frame, s.nextFrame k = some frame := by
  refine exists_next (Core.outputOk hr.moveReachable) hs.reads hsent ?_
  obtain ⟨core, program, conn, written, reads, past⟩ := s
  have hprogress : Progress u kind past program written reads := hs.progress
  obtain ⟨-, hsend, -, hask, -⟩ := @point_after kind
  have hvisit := hs.visit
  have hhandled : Core.handledBy k core.trace = written := hhandled
  -- it has been told one frame more than it has read
  have htold : written.length < 3 → (Core.enqueuedTo k core.trace).length = written.length ∨
      written.length = 2 ∧ 2 ≤ (Core.enqueuedTo k core.trace).length := by
    intro hshort
    cases hvisit with
    | here _ _ hstage =>
      rw [hhandled] at hstage
      generalize Core.enqueuedTo k core.trace = enqueued at hstage
      cases hstage with
      | arrived | greeted => exact .inl rfl
      | answered _ => exact .inr ⟨rfl, Nat.le_add_left ..⟩
    | gone _ hscript _ _ =>
      rw [← hhandled, hscript] at hshort
      exact absurd hshort (lt_irrefl 3)
  cases hprogress with
  | opened => cases hsend.symm.trans hpoint
  | registered => cases hask.symm.trans hpoint
  | greets =>
    rcases htold (Nat.one_lt_succ_succ 1) with hone | ⟨htwo, -⟩
    · exact hone.symm ▸ Nat.one_pos
    · cases htwo
  | asks =>
    rcases htold (Nat.lt_succ_self 2) with htwo | ⟨-, htwo⟩
    · exact htwo.symm ▸ Nat.lt_succ_self 1
    · exact htwo
  | answered _ _ | leaves _ _ | ended _ _ => cases hpoint

end QueryOk

/-- **Every state of a query that nothing disturbs.** -/
theorem queryOk (h : QueryReachable u kind (LeavesQuery u kind) s) :
    s.conn = none ∧ s.program = kind.handler ∧ s.written = [] ∧ s.reads = [] ∨
      ∃ k, QueryOk u kind k s := by
  refine Transition.Reachable.invariant (P := fun s =>
    s.conn = none ∧ s.program = kind.handler ∧ s.written = [] ∧ s.reads = [] ∨
      ∃ k, QueryOk u kind k s) ?_ ?_ h
  · rintro s ⟨-, hprogram, hconn, hwritten, hreads, -⟩
    exact .inl ⟨hconn, hprogram, hwritten, hreads⟩
  · rintro s t hs hok ⟨e, hadmits, hst⟩
    have hr := QueryReachable.core hs
    rcases hok with ⟨hconn, hprogram, hwritten, hreads⟩ | ⟨k, hok⟩
    · cases hst with
      | core _ _ => exact .inl ⟨hconn, hprogram, hwritten, hreads⟩
      | resume hpoint hresumes =>
        have hopen : kind.handler.point = some .openConnection := point_after.1
        rw [hprogram, hopen] at hpoint
        obtain rfl := Option.some.inj hpoint
        cases hresumes with
        | @openConnection i k _ hl hk hnew =>
          have hmentions : ∀ e ∈ s.core.trace, e.Mentions k →
              e = .accepted k ∨ ∃ reason, e = .closed k reason :=
            fun e he hm => .inl (hnew e he hm)
          refine .inr ⟨k, rfl, List.mem_singleton_self _, ?_, ?_, .here hl hk ?_, ?_⟩
          · show Core.receivedBy k s.core.trace <+: _
            rw [Core.receivedBy, flatMap_eq_nil_of_new
              (fun _ => Core.Effect.receivedBy_of_not_mentions) rfl (fun _ => rfl) hmentions]
            exact List.nil_prefix
          · show s.reads <+: _
            rw [hreads]
            exact List.nil_prefix
          · rw [handledBy_eq_nil_of_new hmentions, Core.enqueuedTo, flatMap_eq_nil_of_new
              (fun _ => Core.Effect.enqueuedTo_of_not_mentions) rfl (fun _ => rfl) hmentions]
            exact .arrived
          · show Progress u kind [s.core] (s.program.resumed _) s.written s.reads
            rw [hprogram, hwritten, hreads]
            exact .opened
        | connectionError hk _ _ =>
          rw [hconn] at hk
          cases hk
    · cases hst with
      | core hcore hreceived =>
        exact .inr ⟨k, hok.core hr hcore (hadmits k hok.conn) (hreceived k hok.conn)⟩
      | resume hpoint hresumes => exact .inr ⟨k, hok.resume hr hpoint hresumes⟩

/-! ## What a query writes -/

/-- The frames a handler has written, with the answers it got. -/
def writing (u : Username) : Effects Point Answer Sharing Exn (List Frame) where
  legal _ _ := True
  apply _ written := written
  answer
    | .coreSend type, .ok _, written => written ++ [commandFrame u type]
    | .sendQuit, .ok _, written => written ++ [commandFrame u .quit]
    | _, _, written => written

/-- The frames are frames of a visitor. -/
def OnScript (v : Core.Visitor) (written : List Frame) : Prop := ∀ f ∈ written, f ∈ v.script

variable {α : Type} {v : Core.Visitor}

theorem OnScript.concat {frame : Frame} (h : OnScript v written) (hframe : frame ∈ v.script) :
    OnScript v (written ++ [frame]) := by
  intro f hf
  rcases List.mem_append.mp hf with hf | hf
  · exact h f hf
  · exact List.mem_singleton.mp hf ▸ hframe

/-- What a handler writes is never taken back. -/
theorem OnScript.of_ends {c : Handler α} (h : c.Ends (writing u) (fun _ => OnScript v) written) :
    OnScript v written := by
  induction c generalizing written with
  | ret a => exact h
  | raise e => exact h
  | perform effect rest ih => exact ih h.2
  | await point rest ih =>
    have hend := ih (.error .other) (h (.error .other))
    cases point <;> exact hend

namespace Handler

theorem coreSend_onScript {type : ClientMsgType} (htype : commandFrame u type ∈ v.script)
    (h : OnScript v written) :
    (coreSend type).Ends (writing u) (fun _ => OnScript v) written := by
  refine ends_bind (ends_wait fun r => ?_)
  cases r with
  | ok a => exact h.concat htype
  | error e => exact h

theorem coreRead_onScript (h : OnScript v written) :
    Handler.coreRead.Ends (writing u) (fun _ => OnScript v) written := by
  refine ends_bind (ends_wait fun r => ?_)
  rcases r with e | _ | frame <;> exact h

theorem openRegisteredCore_onScript (hhello : helloFrame u ∈ v.script) (h : OnScript v written) :
    openRegisteredCore.Ends (writing u) (fun _ => OnScript v) written := by
  refine ends_bind (ends_wait fun r => ?_)
  cases r with
  | error e => exact h
  | ok a =>
    have hfail : ∀ e w, OnScript v w → ((emit .closeWriter).bind fun _ =>
        (suppress Exn.isOSError (wait .waitClosed)).bind fun _ => (raise e : Handler Unit)).Ends
        (writing u) (fun _ => OnScript v) w := by
      intro e w hw
      refine ends_bind (ends_emit trivial (ends_bind (ends_suppress (ends_wait fun r => ?_))))
      cases r with
      | ok a => exact hw
      | error e' =>
        simp only
        split_ifs <;> exact hw
    refine ends_bind (ends_emit trivial (ends_tryExcept ?_))
    refine ends_bind ((@coreSend_onScript u _ v .hello hhello h).mono fun r w hw => ?_)
    cases r with
    | error e => exact hfail e w hw
    | ok _ =>
      refine ends_bind ((coreRead_onScript hw).mono fun r w' hw' => ?_)
      cases r with
      | error e => exact hfail e w' hw'
      | ok frame =>
        simp only
        split_ifs
        · exact hfail _ w' hw'
        · exact hw'

theorem query_onScript {type : ClientMsgType} {isAnswer : GatewayEvent → Bool}
    (hhello : helloFrame u ∈ v.script) (hquery : commandFrame u type ∈ v.script)
    (hquit : commandFrame u .quit ∈ v.script) (h : OnScript v written) :
    (query type isAnswer).Ends (writing u) (fun _ => OnScript v) written := by
  have hfinal : ∀ w, OnScript v w → ((wait .sendQuit).bind fun _ => (emit .closeWriter).bind
      fun _ => (wait .waitClosed).bind fun _ => (ret () : Handler Unit)).Ends (writing u)
      (fun _ => OnScript v) w := by
    intro w hw
    refine ends_bind (ends_wait fun r => ?_)
    cases r with
    | error e => exact hw
    | ok a =>
      refine ends_bind (ends_emit trivial (ends_bind (ends_wait fun r => ?_)))
      cases r <;> exact hw.concat hquit
  refine ends_bind ((openRegisteredCore_onScript hhello h).mono fun r w hw => ?_)
  cases r with
  | error e => exact hw
  | ok _ =>
    refine ends_tryFinally_state (ends_bind ((coreSend_onScript hquery hw).mono fun r w hw => ?_))
    cases r with
    | error e => exact hfinal w hw
    | ok _ =>
      refine ends_bind ((coreRead_onScript hw).mono fun r w' hw' => ?_)
      cases r with
      | error e => exact hfinal w' hw'
      | ok frame =>
        simp only
        split
        · exact hfinal w' hw'
        · split_ifs <;> exact hfinal w' hw'

end Handler

theorem handler_onScript (u : Username) (kind : QueryKind) :
    kind.handler.Ends (writing u) (fun _ => OnScript (kind.visitor u)) [] := by
  have hnil : OnScript (kind.visitor u) [] := fun _ hf => absurd hf List.not_mem_nil
  cases kind with
  | channels | coreStats =>
    exact Handler.query_onScript List.mem_cons_self (List.mem_cons_of_mem _ List.mem_cons_self)
      (List.mem_cons_of_mem _ (List.mem_cons_of_mem _ List.mem_cons_self)) hnil

/-- **In every run a query writes `HELLO`, its query and `QUIT` only.** -/
theorem QueryReachable.onScript (h : QueryReachable u kind admits s) :
    OnScript (kind.visitor u) s.written := by
  refine OnScript.of_ends (c := s.program) (u := u) ?_
  refine Transition.Reachable.invariant (P := fun s =>
    s.program.Ends (writing u) (fun _ => OnScript (kind.visitor u)) s.written) ?_ ?_ h
  · rintro s ⟨-, hprogram, -, hwritten, -⟩
    rw [hprogram, hwritten]
    exact handler_onScript u kind
  · rintro s t - hs ⟨e, -, hst⟩
    cases hst with
    | core _ _ => exact hs
    | @resume t point r hpoint hresumes =>
      cases hprogram : s.program with
      | ret _ | raise _ | perform _ _ =>
        rw [hprogram] at hpoint
        cases hpoint
      | await point' rest =>
        rw [hprogram] at hpoint hs
        obtain rfl := Option.some.inj hpoint
        have hwritten : t.written = (writing u).answer point' r s.written := by
          cases hresumes with
          | openConnection _ _ _ _ | coreSend | coreRead _ _ | sendQuit | waitClosed
          | incompleteRead _ _ _ => rfl
          | connectionError _ _ hwhere => rcases hwhere with rfl | ⟨type, rfl⟩ <;> rfl
        show ((rest r).drive _ ()).2.Ends _ _ t.written
        rw [hwritten]
        exact (hs r).drive_of_apply (fun _ _ => rfl) ()

/-! ## Schedules -/

/-- What a schedule does next: with the core, or with the query. -/
inductive QueryOp where
  /-- The core accepts a connection, and the query opens it. -/
  | accept (fd : ℕ)
  /-- A frame arrives at the core in one piece and is handled. -/
  | deliver (i : Core.Slot) (frame : Frame)
  /-- The first frame of a queue is sent. -/
  | flush (i : Core.Slot)
  /-- The wait of the query ends. -/
  | resume

namespace QueryState

/-- The state after a step of the core. -/
def setCore (s : QueryState) (core : Core.Server) : QueryState :=
  { s with core := core, past := s.past ++ [core] }

/-- What it does. -/
def perform (u : Username) (s : QueryState) : QueryOp → QueryState
  | .accept fd =>
    let core := Core.acceptConnection s.core fd true
    { s with
      core := core
      program := s.program.resumed (.ok .done)
      conn := some (s.core.stats.totalConnections + 1)
      past := [core] }
  | .deliver i frame =>
    (s.setCore (Core.recvChunk s.core i frame.encode)).setCore (Core.deliver s.core i frame)
  | .flush i => s.setCore (Core.takeSent s.core i (unsent (s.core.clients i)))
  | .resume =>
    match s.program.point with
    | some (.coreSend type) =>
      { s with
        program := s.program.resumed (.ok .done)
        written := s.written ++ [commandFrame u type] }
    | some .sendQuit =>
      { s with
        program := s.program.resumed (.ok .done)
        written := s.written ++ [commandFrame u .quit] }
    | some .coreRead =>
      (s.conn.bind s.nextFrame).elim s fun frame =>
        { s with
          program := s.program.resumed (.ok (.frame frame))
          reads := s.reads ++ [frame] }
    | some .waitClosed => { s with program := s.program.resumed (.ok .done) }
    | _ => s

/-- The core received from the query what it wrote. -/
def Delivered (s : QueryState) (core : Core.Server) : Prop :=
  ∀ k ∈ s.conn, Core.receivedBy k core.trace <+: cwFraming.encodeAll s.written

instance (s : QueryState) (core : Core.Server) : Decidable (s.Delivered core) := by
  unfold Delivered
  infer_instance

/-- The operation can be done. -/
def Enabled (s : QueryState) : QueryOp → Prop
  | .accept fd => Core.FreshFd s.core fd ∧ (∃ i : Core.Slot, Core.freeSlot s.core = some i) ∧
    s.conn = none ∧ (s.program.point matches some .openConnection)
  | .deliver i frame => (s.core.clients i).Live ∧
    (s.core.clients i).inbuf.length + frame.encode.length ≤ Core.cwInbufCap ∧
    s.Delivered (Core.recvChunk s.core i frame.encode) ∧ s.Delivered (Core.deliver s.core i frame)
  | .flush i => (s.core.clients i).Live ∧ 0 < unsent (s.core.clients i) ∧
    s.Delivered (Core.takeSent s.core i (unsent (s.core.clients i)))
  | .resume => True

instance (s : QueryState) : (op : QueryOp) → Decidable (s.Enabled op)
  | .accept fd => inferInstanceAs (Decidable ((∀ i, (s.core.clients i).fd ≠ fd) ∧ _))
  | .deliver _ _ => inferInstanceAs (Decidable (_ ∧ _ ∧ _ ∧ _))
  | .flush _ => inferInstanceAs (Decidable (_ ∧ _ ∧ _))
  | .resume => inferInstanceAs (Decidable True)

/-- The events of an operation meet the condition. -/
def Admitted (admits : QueryState → QueryEvent → Prop) (s : QueryState) : QueryOp → Prop
  | .accept fd => admits s (.core (Core.acceptConnection s.core fd true)) ∧
    admits (s.setCore (Core.acceptConnection s.core fd true)) .resume
  | .deliver i frame => admits s (.core (Core.recvChunk s.core i frame.encode)) ∧
    admits (s.setCore (Core.recvChunk s.core i frame.encode)) (.core (Core.deliver s.core i frame))
  | .flush i => admits s (.core (Core.takeSent s.core i (unsent (s.core.clients i))))
  | .resume => admits s .resume

/-- Every operation of a schedule can be done and meets the condition. -/
def Legal (u : Username) (P : QueryState → QueryOp → Prop) : QueryState → List QueryOp → Prop
  | _, [] => True
  | s, op :: ops => s.Enabled op ∧ P s op ∧ Legal u P (s.perform u op) ops

instance decidableLegal (u : Username) (P : QueryState → QueryOp → Prop)
    [∀ s op, Decidable (P s op)] :
    (s : QueryState) → (ops : List QueryOp) → Decidable (Legal u P s ops)
  | _, [] => isTrue trivial
  | s, op :: ops =>
    @instDecidableAnd _ _ _ (@instDecidableAnd _ _ _ (decidableLegal u P (s.perform u op) ops))

end QueryState

open QueryState

theorem QueryReachable.setCore (h : QueryReachable u kind admits s) {core : Core.Server}
    (hstep : Core.Step s.core core) (hdelivered : s.Delivered core)
    (hadmits : admits s (.core core)) : QueryReachable u kind admits (s.setCore core) :=
  .step h ⟨.core core, hadmits, .core hstep hdelivered⟩

/-- **An operation is a run of one event or two.** -/
theorem QueryReachable.perform {op : QueryOp} (h : QueryReachable u kind admits s)
    (hen : s.Enabled op) (hadmitted : s.Admitted admits op) :
    QueryReachable u kind admits (s.perform u op) := by
  cases op with
  | accept fd =>
    obtain ⟨hfd, ⟨slot, hslot⟩, hconn, hpoint⟩ := hen
    have hn := Core.numbered (Core.Reachable.moveReachable (QueryReachable.core h))
    have hcore : Core.acceptConnection s.core fd true = Core.occupySlot s.core slot fd := by
      unfold Core.acceptConnection
      rw [hslot]
      rfl
    have haccept : QueryReachable u kind admits
        (s.setCore (Core.acceptConnection s.core fd true)) :=
      h.setCore (.accept hfd) (fun k hk => by rw [hconn] at hk; cases hk) hadmitted.1
    have hclient : (Core.acceptConnection s.core fd true).clients slot =
        { Core.Client.blank with fd := fd, conn := s.core.stats.totalConnections + 1 } := by
      rw [hcore]
      exact Function.update_self ..
    have hopen : s.program.point = some .openConnection := by
      split at hpoint
      · assumption
      · cases hpoint
    refine .step haccept ⟨.resume, hadmitted.2, .resume (t := { s.setCore
      (Core.acceptConnection s.core fd true) with
        conn := some (s.core.stats.totalConnections + 1)
        past := [Core.acceptConnection s.core fd true] }) hopen ?_⟩
    refine .openConnection (i := slot) hconn ?_ ?_ ?_
    · show ((Core.acceptConnection s.core fd true).clients slot).Live
      rw [hclient]
      exact Int.natCast_nonneg fd
    · show ((Core.acceptConnection s.core fd true).clients slot).conn = _
      rw [hclient]
    · show ∀ e ∈ (Core.acceptConnection s.core fd true).trace, _
      rw [hcore]
      intro e he hm
      rcases List.mem_append.mp he with he | he
      · exact absurd hm (hn.not_mentions (Nat.lt_succ_self _) e he)
      · exact List.mem_singleton.mp he
  | deliver i frame =>
    obtain ⟨hl, hroom, hdel, hdel'⟩ := hen
    have hne : frame.encode ≠ [] := by
      rw [← List.length_pos_iff, Frame.length_encode]
      exact Nat.add_pos_left (by decide) _
    refine (h.setCore (.recv hl hne hroom) hdel hadmitted.1).setCore (.drain ?_) hdel' hadmitted.2
    show ((Core.recvChunk s.core i frame.encode).clients i).Live
    rw [Core.recvChunk, Core.Server.emit_clients, Core.Server.setClient_self]
    exact hl
  | flush i =>
    obtain ⟨hl, hpos, hdel⟩ := hen
    cases hout : (s.core.clients i).out.toList with
    | nil =>
      rw [unsent, hout] at hpos
      cases hpos
    | cons frame rest =>
      have hunsent : unsent (s.core.clients i) = frame.len - frame.sent := by
        rw [unsent, hout]
        rfl
      exact h.setCore (.send hl hout hpos hunsent.le) hdel hadmitted
  | resume =>
    have hresume : ∀ {point : Point} {r : Except Exn Answer} {t : QueryState},
        s.program.point = some point → Resumes u s point r t →
        QueryReachable u kind admits { t with program := s.program.resumed r } :=
      fun hpoint hresumes => .step h ⟨.resume, hadmitted, .resume hpoint hresumes⟩
    unfold QueryState.perform
    simp only
    split
    · next type hpoint => exact hresume hpoint (.coreSend type)
    · next hpoint => exact hresume hpoint .sendQuit
    · next hpoint =>
      cases hnext : s.conn.bind s.nextFrame with
      | none => exact h
      | some frame =>
        obtain ⟨k, hk, hframe⟩ := Option.bind_eq_some_iff.mp hnext
        exact hresume hpoint (.coreRead hk hframe)
    · next hpoint => exact hresume hpoint .waitClosed
    · exact h

/-- **A schedule is a run.** -/
theorem QueryReachable.run {ops : List QueryOp} (h : QueryReachable u kind admits s)
    (hlegal : Legal u (QueryState.Admitted admits) s ops) :
    QueryReachable u kind admits (ops.foldl (QueryState.perform u) s) := by
  induction ops generalizing s with
  | nil => exact h
  | cons op ops ih => exact ih (h.perform hlegal.1 hlegal.2.1) hlegal.2.2

theorem QueryState.Legal.mono {P Q : QueryState → QueryOp → Prop} (h : ∀ s op, P s op → Q s op)
    {ops : List QueryOp} (hP : Legal u P s ops) : Legal u Q s ops := by
  induction ops generalizing s with
  | nil => trivial
  | cons op ops ih => exact ⟨hP.1, h s op hP.2.1, ih hP.2.2⟩

/-- A condition on steps of the core under which they do not disturb a visitor: whatever is in front
of an input buffer, nothing is refused to the visitor, and the step closes no connection but after a
request. -/
def Calm (v : Core.Visitor) (s t : Core.Server) : Prop :=
  (∀ i, ∀ frame ∈ front (s.clients i),
    (frame = v.hello → Core.usernameInUse s v.name i = false ∧
      Core.Accepts s i Core.greeting.payload) ∧
    (frame = v.query → ∃ answer ∈ Core.queryAnswer s v.type, Core.Accepts s i answer.2) ∧
    frame.type ≠ ClientMsgType.dm.toByte) ∧
  ∀ e ∈ (t.trace.drop s.trace.length).head?, (e matches .closed _ _) = false

instance (v : Core.Visitor) (s t : Core.Server) : Decidable (Calm v s t) := by
  unfold Calm
  infer_instance

theorem Calm.undisturbed {v : Core.Visitor} {s t : Core.Server} (h : Calm v s t) :
    Core.Undisturbed v k s t := by
  have hfront : ∀ {i turn frame}, Core.TakesTurn s t i turn → turn.request = some frame →
      frame ∈ front (s.clients i) := by
    intro i turn frame hturn hreq
    obtain ⟨n, hhead⟩ : ∃ n, frameHead cwMaxPayloadSize (s.clients i).inbuf = .item frame n := by
      have hrequest := hturn.request
      rwa [hreq] at hrequest
    rw [front, hhead]
    rfl
  refine ⟨fun i turn hturn _ hreq => ?_, fun i turn hturn _ hreq => ?_,
    fun i turn frame j text hturn hreq hdm _ => ?_, fun i reason hl _ heq => ?_⟩
  · exact (h.1 i _ (hfront hturn hreq)).1 rfl
  · exact (h.1 i _ (hfront hturn hreq)).2.1 rfl
  · exact absurd hdm.dm (h.1 i _ (hfront hturn hreq)).2.2
  · have hclosed := h.2 (.closed (s.clients i).conn reason)
    rw [heq, Core.disconnectClient_trace _ _ _ hl, List.drop_left] at hclosed
    have hnot : true = false := hclosed rfl
    cases hnot

/-- A condition on operations under which they do not disturb the query. -/
def CalmOp (u : Username) (kind : QueryKind) (s : QueryState) : QueryOp → Prop
  | .accept _ => s.conn = none
  | .deliver i frame =>
    Calm (kind.visitor u) s.core (Core.recvChunk s.core i frame.encode) ∧
      Calm (kind.visitor u) (Core.recvChunk s.core i frame.encode) (Core.deliver s.core i frame)
  | .flush i =>
    Calm (kind.visitor u) s.core (Core.takeSent s.core i (unsent (s.core.clients i)))
  | .resume => True

instance (u : Username) (kind : QueryKind) (s : QueryState) :
    (op : QueryOp) → Decidable (CalmOp u kind s op)
  | .accept _ => inferInstanceAs (Decidable (s.conn = none))
  | .deliver _ _ => inferInstanceAs (Decidable (Calm _ _ _ ∧ Calm _ _ _))
  | .flush _ => inferInstanceAs (Decidable (Calm _ _ _))
  | .resume => inferInstanceAs (Decidable True)

theorem CalmOp.admitted (op : QueryOp) (h : CalmOp u kind s op) :
    s.Admitted (LeavesQuery u kind) op := by
  cases op with
  | accept fd =>
    have hnone : s.conn = none := h
    refine ⟨fun k hk => ?_, trivial⟩
    rw [hnone] at hk
    cases hk
  | deliver i frame => exact ⟨fun _ _ => h.1.undisturbed, fun _ _ => h.2.undisturbed⟩
  | flush i => exact fun _ _ => Calm.undisturbed h
  | resume => trivial

/-- The state of a query, before it begins, on a core on which `alice` has a session. -/
def besideAlice (kind : QueryKind) : QueryState where
  core := (start.run aliceOnline).core
  program := kind.handler
  conn := none
  written := []
  reads := []
  past := []

theorem queryReachable_besideAlice : QueryReachable u kind admits (besideAlice kind) := by
  have hreach : Reachable (fun _ _ => True) (start.run aliceOnline) :=
    reachable_of_legal (by decide +kernel)
  exact .init ⟨Reachable.core hreach, rfl, rfl, rfl, rfl, rfl⟩

/-- All of a query that is answered. -/
def answeredQuery (u : Username) (kind : QueryKind) : List QueryOp :=
  [.accept 5, .resume, .deliver 1 (helloFrame u), .flush 1, .resume, .resume,
    .deliver 1 (kind.visitor u).query, .flush 1, .resume, .resume,
    .deliver 1 (commandFrame u .quit), .resume]

/-- A query whose `HELLO` is refused. -/
def refusedQuery (u : Username) : List QueryOp :=
  [.accept 5, .resume, .deliver 1 (helloFrame u), .flush 1, .resume, .resume]

/-! ## Queries -/

/-- **A query leaves the other clients alone**, whether it is disturbed or not. -/
theorem QueryReachable.spares (h : QueryReachable u kind admits s) {core : Core.Server}
    (hst : QueryStep u s (.core core) t) {i j : Core.Slot} {turn : Core.Turn}
    (hturn : Core.TakesTurn s.core core i turn) (hconn : turn.conn ∈ s.conn) (hne : j ≠ i) :
    core.clients j = s.core.clients j := by
  have hr := QueryReachable.core h
  cases hst with
  | core hcore hreceived =>
    cases hreq : turn.request with
    | none =>
      rw [hturn.rejects hreq]
      exact Core.enqueueOrDisconnect_clients_of_ne _ _ hne
    | some frame =>
      -- what is handled was received, and what is received was written
      have hhandled : Core.handledBy turn.conn core.trace <+: s.written :=
        ((Core.inputOk (Transition.Reachable.step hr hcore)).handled turn.conn).trans
          (StreamDecoder.Codec.parse_prefix
            (fun f hf => (kind.visitor u).valid_script f (h.onScript f hf))
            (hreceived turn.conn hconn))
      rw [hturn.handledBy_eq, if_pos rfl, hreq] at hhandled
      have hframe : frame ∈ s.written :=
        hhandled.subset (List.mem_append_right _ (List.mem_singleton_self frame))
      exact hturn.spares_of_visitor hr hreq (h.onScript frame hframe) hne

/-- **A query that nothing disturbs is answered**: it does not raise, what it returns is what the
core had at one time while it ran, and what it waits for comes.  Its own frames change nothing for
the other clients, and a direct message for a user with a session finds the session. -/
theorem queries_answered (u : Username) (kind : QueryKind) {s : QueryState}
    (h : QueryReachable u kind (LeavesQuery u kind) s) :
    (∀ e, s.program ≠ raise e) ∧
    (∀ event, s.program = ret event → ∃ core ∈ s.past, event = kind.answer core) ∧
    (∀ k ∈ s.conn, s.program.point = some .coreRead →
      Core.handledBy k s.core.trace = s.written →
      Core.sentTo k s.core.trace = pyFraming.encodeAll (Core.enqueuedTo k s.core.trace) →
      ∃ frame, s.nextFrame k = some frame) ∧
    (∀ core t i turn, QueryStep u s (.core core) t → Core.TakesTurn s.core core i turn →
      turn.conn ∈ s.conn → ∀ j, j ≠ i → core.clients j = s.core.clients j) ∧
    ∀ j, (s.core.clients j).Live → (s.core.clients j).registered = true →
      (s.core.clients j).username = u.bytes → Core.findUser s.core u.bytes = some j := by
  have hr := QueryReachable.core h
  have hprogram : s.program = kind.handler ∨ ∃ k, QueryOk u kind k s :=
    (queryOk h).imp (fun hs => hs.2.1) id
  refine ⟨fun e he => ?_, fun event hevent => ?_, fun k hk hpoint hhandled hsent => ?_,
    fun core t i turn hst hturn hconn j hne => h.spares hst hturn hconn hne,
    fun j hl hregistered hname =>
      (Core.namesOk hr.moveReachable).findUser_eq_some_iff.mpr ⟨hl, hregistered, hname⟩⟩
  · rcases hprogram with hs | ⟨k, hs⟩
    · rw [hs] at he
      cases kind <;> cases he
    · exact hs.progress.ne_raise he
  · rcases hprogram with hs | ⟨k, hs⟩
    · rw [hs] at hevent
      cases kind <;> cases hevent
    · exact hs.progress.of_ret hevent
  · rcases queryOk h with ⟨hnone, -⟩ | ⟨k', hs⟩
    · rw [hnone] at hk
      cases hk
    · obtain rfl := Option.some.inj (hs.conn.symm.trans hk)
      exact hs.exists_nextFrame hr hpoint hhandled hsent

/-- A query of `bob` while `alice` has a session. -/
theorem queries_answered_beside : ∃ s, QueryReachable bob .channels (LeavesQuery bob .channels) s ∧
    ∃ core ∈ s.past, s.program = ret (QueryKind.answer core .channels) := by
  have hrun : QueryReachable bob .channels (LeavesQuery bob .channels)
      ((answeredQuery bob .channels).foldl (QueryState.perform bob) (besideAlice .channels)) :=
    queryReachable_besideAlice.run (Legal.mono (fun _ => CalmOp.admitted) (by decide +kernel))
  obtain ⟨hraise, hret, -⟩ := queries_answered bob .channels hrun
  have hover : ((answeredQuery bob .channels).foldl (QueryState.perform bob)
      (besideAlice .channels)).program.isOver = true := by decide +kernel
  refine ⟨_, hrun, ?_⟩
  generalize (answeredQuery bob .channels).foldl (QueryState.perform bob)
    (besideAlice .channels) = s at hraise hret hover
  cases hprogram : s.program with
  | ret event =>
    obtain ⟨core, hcore, rfl⟩ := hret event hprogram
    exact ⟨core, hcore, rfl⟩
  | raise e => exact absurd hprogram (hraise e)
  | perform _ _ | await _ _ =>
    rw [hprogram] at hover
    cases hover

/-- While `alice` has a session, her query ends with the status 409. -/
theorem query_refused_beside_session : ∃ s, QueryReachable alice .channels (fun _ _ => True) s ∧
    s.program.raised = some (.http 409) ∧ ∃ i, (s.core.clients i).Live ∧
      (s.core.clients i).conn = 1 ∧ (s.core.clients i).registered = true ∧
      (s.core.clients i).username = alice.bytes := by
  have hlegal : Legal alice (fun _ _ => True) (besideAlice .channels) (refusedQuery alice) := by
    decide +kernel
  have hadmitted : ∀ (s : QueryState) op, True → s.Admitted (fun _ _ => True) op := by
    rintro s (_ | _ | _ | _) -
    · exact ⟨trivial, trivial⟩
    · exact ⟨trivial, trivial⟩
    · trivial
    · trivial
  exact ⟨_, queryReachable_besideAlice.run (hlegal.mono hadmitted), by decide +kernel⟩

end Gateway
end ChannelWire
