import ChannelWire.Core.Connections

/-!
# Turns

The trace of the server falls into turns: `drain_input` hands a frame to `handle_frame`, or
rejects a header, and the frames that are enqueued before the next such event are what the server
says in this turn.  Between two turns it enqueues nothing.

`Step.quiet_or_turn` says for every step whether it is a turn, and whose; `TakesTurn` says what a
turn can enqueue, and to whom.
-/

namespace ChannelWire
namespace Core

open LinkedQueue

/-- A call of `handle_frame`, or the rejection of a header. -/
structure Turn where
  /-- The connection whose turn it is. -/
  conn : ℕ
  /-- The frame, unless its header was rejected. -/
  request : Option Frame
  /-- The frames enqueued in this turn, with the connections they go to. -/
  output : List (ℕ × Frame)

namespace Effect

/-- The turn that an effect begins. -/
def begins : Effect → Option (ℕ × Option Frame)
  | handled k frame => some (k, some frame)
  | malformed k => some (k, none)
  | _ => none

/-- What an effect enqueues. -/
def output : Effect → List (ℕ × Frame)
  | enqueued k frame => [(k, frame)]
  | _ => []

/-- The effect concerns turns. -/
def IsTurn (e : Effect) : Prop := e.begins ≠ none ∨ e.output ≠ []

/-- What an effect enqueues to `k`, from what it enqueues. -/
theorem enqueuedTo_eq (k : ℕ) (e : Effect) :
    e.enqueuedTo k = e.output.filterMap fun o => if o.1 = k then some o.2 else none := by
  cases e with
  | enqueued c frame =>
    by_cases h : c = k <;> simp [enqueuedTo, output, h]
  | _ => rfl

/-- The frame handled for `k`, from the turn the effect begins. -/
theorem handledBy_of_begins {k : ℕ} {e : Effect} (h : e.begins = none) : e.handledBy k = [] := by
  cases e <;> first | rfl | cases h

end Effect

/-- What is enqueued before the next turn begins. -/
def outputBefore : List Effect → List (ℕ × Frame)
  | [] => []
  | e :: es => if e.begins = none then e.output ++ outputBefore es else []

/-- The turns of a trace. -/
def turns : List Effect → List Turn
  | [] => []
  | e :: es =>
    match e.begins with
    | some (k, request) => ⟨k, request, outputBefore es⟩ :: turns es
    | none => turns es

/-- What a turn enqueues to connection `k`. -/
def Turn.outputTo (k : ℕ) (turn : Turn) : List Frame :=
  turn.output.filterMap fun o => if o.1 = k then some o.2 else none

/-- The frames enqueued to connection `k`, each with the connection in whose turn it was. -/
def origins (k : ℕ) (trace : List Effect) : List (ℕ × Frame) :=
  (turns trace).flatMap fun turn => (turn.outputTo k).map (turn.conn, ·)

theorem mem_outputTo {k : ℕ} {turn : Turn} {frame : Frame} :
    frame ∈ turn.outputTo k ↔ (k, frame) ∈ turn.output := by
  rw [Turn.outputTo, List.mem_filterMap]
  constructor
  · rintro ⟨⟨c, f⟩, hmem, ho⟩
    obtain ⟨rfl, hf⟩ := Option.ite_none_right_eq_some.mp ho
    rw [← Option.some.inj hf]
    exact hmem
  · exact fun hmem => ⟨(k, frame), hmem, if_pos rfl⟩

theorem mem_origins {c k : ℕ} {trace : List Effect} {frame : Frame} :
    (c, frame) ∈ origins k trace ↔ ∃ turn ∈ turns trace, turn.conn = c ∧ (k, frame) ∈ turn.output := by
  rw [origins, List.mem_flatMap]
  refine exists_congr fun turn => and_congr_right fun _ => ?_
  rw [List.mem_map]
  constructor
  · rintro ⟨f, hf, heq⟩
    obtain ⟨rfl, rfl⟩ := Prod.mk.inj heq
    exact ⟨rfl, mem_outputTo.mp hf⟩
  · rintro ⟨rfl, hf⟩
    exact ⟨frame, mem_outputTo.mpr hf, rfl⟩

/-- A turn begins with an effect about its connection. -/
theorem exists_mentions_of_mem_turns {trace : List Effect} {turn : Turn} (h : turn ∈ turns trace) :
    ∃ e ∈ trace, e.begins = some (turn.conn, turn.request) ∧ e.Mentions turn.conn := by
  induction trace with
  | nil => cases h
  | cons e es ih =>
    have hrest : turn ∈ turns es → ∃ e' ∈ e :: es,
        e'.begins = some (turn.conn, turn.request) ∧ e'.Mentions turn.conn := fun hmem => by
      obtain ⟨e', he', hbegins⟩ := ih hmem
      exact ⟨e', List.mem_cons_of_mem e he', hbegins⟩
    rw [turns] at h
    cases hbegins : e.begins with
    | none =>
      rw [hbegins] at h
      exact hrest h
    | some b =>
      obtain ⟨k, request⟩ := b
      rw [hbegins] at h
      rcases List.mem_cons.mp h with rfl | h
      · refine ⟨e, List.mem_cons_self, hbegins, ?_⟩
        cases e <;> cases hbegins <;> rfl
      · exact hrest h

/-! ## A trace that grows -/

theorem outputBefore_append {es : List Effect} (h : outputBefore es = []) (l : List Effect) :
    outputBefore (l ++ es) = outputBefore l := by
  induction l with
  | nil => exact h
  | cons e l ih => rw [List.cons_append, outputBefore, outputBefore, ih]

theorem outputBefore_eq {es : List Effect} (h : ∀ e ∈ es, e.begins = none) :
    outputBefore es = es.flatMap Effect.output := by
  induction es with
  | nil => rfl
  | cons e es ih =>
    rw [outputBefore, if_pos (h e List.mem_cons_self), List.flatMap_cons,
      ih fun e' he' => h e' (List.mem_cons_of_mem e he')]

theorem turns_of_begins {es : List Effect} (h : ∀ e ∈ es, e.begins = none) : turns es = [] := by
  induction es with
  | nil => rfl
  | cons e es ih =>
    rw [turns, h e List.mem_cons_self]
    exact ih fun e' he' => h e' (List.mem_cons_of_mem e he')

/-- The turns of a trace stay when what follows does not add to the last one. -/
theorem turns_append {es : List Effect} (h : outputBefore es = []) (l : List Effect) :
    turns (l ++ es) = turns l ++ turns es := by
  induction l with
  | nil => rfl
  | cons e l ih =>
    rw [List.cons_append, turns, turns, ih]
    cases e.begins with
    | none => rfl
    | some b =>
      obtain ⟨k, request⟩ := b
      show (⟨k, request, outputBefore (l ++ es)⟩ : Turn) :: (turns l ++ turns es) =
        ⟨k, request, outputBefore l⟩ :: (turns l ++ turns es)
      rw [outputBefore_append h]

/-- What concerns no turn adds none. -/
theorem turns_of_silent {s t : Server} (h : Silent Effect.IsTurn s t) :
    turns t.trace = turns s.trace := by
  obtain ⟨es, htrace, hes⟩ := h
  have hbegins : ∀ e ∈ es, e.begins = none := fun e he => by
    by_contra hne
    exact hes e he (.inl hne)
  have houtput : outputBefore es = [] := by
    rw [outputBefore_eq hbegins, List.flatMap_eq_nil_iff]
    intro e he
    by_contra hne
    exact hes e he (.inr hne)
  rw [htrace, turns_append houtput, turns_of_begins hbegins, List.append_nil]

/-! ## What an action says -/

/-- To an observer of queues and turns nothing happened. -/
abbrev OutputUnseen : Server → Server → Prop :=
  Unseen Client.out fun e => e.IsTurn ∨ ∃ k bytes, e = .sent k bytes

/-- **An action says one frame, or nothing.** -/
theorem Action.push_or_unseen {r : Request} {s t : Server} (h : Action r s t) :
    (∃ i type payload heap, t = pushFrame (s.setHeap heap) i type payload ∧
      r.Emits i type payload ∧ (s.clients i).Live ∧ payload.length ≤ cwMaxPayloadSize) ∨
    OutputUnseen s t := by
  have hsilent : ∀ {e : Effect}, e.begins = none → e.output = [] → (∀ k bytes, e ≠ .sent k bytes) →
      ¬ (e.IsTurn ∨ ∃ k bytes, e = .sent k bytes) := by
    rintro e hbegins houtput hsent ((h | h) | ⟨k, bytes, h⟩)
    · exact h hbegins
    · exact h houtput
    · exact hsent k bytes h
  cases h with
  | push hemits hl hlen _ => exact .inl ⟨_, _, _, _, rfl, hemits, hl, hlen⟩
  | drop _ hl => exact .inr (.drop hl (hsilent rfl rfl nofun) (hsilent rfl rfl nofun))
  | rename _ hl _ _ => exact .inr (.update rfl rfl hl rfl rfl)
  | openChannel _ _ _ => exact .inr (.of_eq rfl rfl)
  | join hl _ _ _ => exact .inr (.update rfl rfl hl rfl rfl)
  | switch hl _ _ _ => exact .inr (.update rfl rfl hl rfl rfl)
  | leave hl _ => exact .inr (.update rfl rfl hl rfl rfl)
  | count _ _ => exact .inr (.of_eq rfl rfl)
  | quit hl _ => exact .inr (.disconnect hl (hsilent rfl rfl nofun))
  | announce _ _ _ _ _ _ => exact .inr (.emit rfl rfl (hsilent rfl rfl nofun))

/-- The handler of the request may enqueue the frame to the connection. -/
def Request.Sends (r : Request) (s : Server) (o : ℕ × Frame) : Prop :=
  ∃ i type payload, (s.clients i).Live ∧ (s.clients i).conn = o.1 ∧
    o.2 = ⟨type.toByte, payload⟩ ∧ r.Emits i type payload

/-- What was recorded since `s` begins no turn and enqueues what the request allows. -/
structure Said (r : Request) (s t : Server) (es : List Effect) : Prop where
  live : ∀ i, (t.clients i).Live →
    (s.clients i).Live ∧ (t.clients i).conn = (s.clients i).conn
  trace : t.trace = s.trace ++ es
  begins : ∀ e ∈ es, e.begins = none
  sends : ∀ o ∈ es.flatMap Effect.output, r.Sends s o

theorem Action.said {r : Request} {s t : Server} (h : Action r s t) : ∃ es, Said r s t es := by
  rcases h.push_or_unseen with ⟨i, type, payload, heap, rfl, hemits, hl, -⟩ | hquiet
  · have hpush : Unseen (fun _ => ()) (fun _ => False) s
        (pushFrame (s.setHeap heap) i type payload) := .push hl (fun _ _ _ => rfl) id
    refine ⟨_, fun j hj => ⟨(hpush.live j hj).1, (hpush.live j hj).2.1⟩, pushFrame_trace ..,
      fun e he => ?_, fun o ho => ?_⟩
    · rw [List.mem_singleton.mp he]
      rfl
    · rw [List.flatMap_singleton, Effect.output, List.mem_singleton] at ho
      rw [ho]
      exact ⟨i, type, payload, hl, rfl, rfl, hemits⟩
  · obtain ⟨es, htrace, hes⟩ := hquiet.silent
    refine ⟨es, fun j hj => ⟨(hquiet.live j hj).1, (hquiet.live j hj).2.1⟩, htrace,
      fun e he => ?_, fun o ho => ?_⟩
    · by_contra hne
      exact hes e he (.inl (.inl hne))
    · obtain ⟨e, he, hoe⟩ := List.mem_flatMap.mp ho
      exact absurd (.inl (.inr (List.ne_nil_of_mem hoe))) (hes e he)

theorem Actions.said {r : Request} {s t : Server} (h : Actions r s t) : ∃ es, Said r s t es := by
  induction h with
  | refl => exact ⟨[], fun i hi => ⟨hi, rfl⟩, (List.append_nil _).symm, nofun, nofun⟩
  | tail _ hab ih =>
    obtain ⟨es, hs⟩ := ih
    obtain ⟨es', hs'⟩ := hab.said
    refine ⟨es ++ es', fun i hi => ?_, ?_, fun e he => ?_, fun o ho => ?_⟩
    · obtain ⟨hi', hconn'⟩ := hs'.live i hi
      obtain ⟨hi'', hconn⟩ := hs.live i hi'
      exact ⟨hi'', hconn'.trans hconn⟩
    · rw [hs'.trace, hs.trace, List.append_assoc]
    · exact (List.mem_append.mp he).elim (hs.begins e) (hs'.begins e)
    · rw [List.flatMap_append] at ho
      rcases List.mem_append.mp ho with ho | ho
      · exact hs.sends o ho
      · obtain ⟨i, type, payload, hl, hconn, hframe, hemits⟩ := hs'.sends o ho
        obtain ⟨hl', hconn'⟩ := hs.live i hl
        exact ⟨i, type, payload, hl', hconn'.symm.trans hconn, hframe, hemits⟩

/-! ## Steps -/

/-- The request of a turn of the client in slot `i`. -/
def requestOf (turn : Turn) (s : Server) (i : Slot) : Request :=
  request s i (turn.request.elim 0 Frame.type) (turn.request.elim [] Frame.payload)

/-- The step from `s` to `t` is a turn of the client in slot `i`. -/
structure TakesTurn (s t : Server) (i : Slot) (turn : Turn) : Prop where
  live : (s.clients i).Live
  conn : turn.conn = (s.clients i).conn
  step : t = (drainTurn s i).2
  after : ∀ j, (t.clients j).Live → (s.clients j).Live ∧ (t.clients j).conn = (s.clients j).conn
  /-- The frame, or the bad header, stands in front of the input buffer. -/
  request : match turn.request with
    | some frame => ∃ n, frameHead cwMaxPayloadSize (s.clients i).inbuf = .item frame n
    | none => frameHead cwMaxPayloadSize (s.clients i).inbuf = .bad
  trace : ∃ e es, t.trace = s.trace ++ e :: es ∧ e.begins = some (turn.conn, turn.request) ∧
    (∀ e' ∈ es, e'.begins = none) ∧ es.flatMap Effect.output = turn.output
  sends : ∀ o ∈ turn.output, (requestOf turn s i).Sends s o

/-- The clients after a frame was served are those the handler left, but for an input buffer. -/
theorem serveFrame_clients (s : Server) (i : Slot) (frame : Frame) (n : ℕ) (j : Slot) :
    ∃ inbuf, (serveFrame s i frame n).2.clients j =
      { (handleFrame (s.emit (.handled (s.clients i).conn frame)) i
          frame.type frame.payload).clients j with inbuf := inbuf } := by
  unfold serveFrame
  simp only
  split_ifs with hlive
  · rcases eq_or_ne j i with rfl | hne
    · exact ⟨_, by rw [Server.setClient_self]⟩
    · exact ⟨_, by rw [Server.setClient_of_ne hne]⟩
  · exact ⟨_, rfl⟩

theorem serveFrame_trace (s : Server) (i : Slot) (frame : Frame) (n : ℕ) :
    (serveFrame s i frame n).2.trace = (handleFrame (s.emit (.handled (s.clients i).conn frame)) i
      frame.type frame.payload).trace := by
  unfold serveFrame
  simp only
  split_ifs <;> rfl

/-- **A turn of `drain_input` that finds something is a turn.** -/
theorem drainTurn_quiet_or_turn {s : Server} {i : Slot} (hl : (s.clients i).Live) :
    (drainTurn s i).2 = s ∨ ∃ turn, TakesTurn s (drainTurn s i).2 i turn := by
  cases hhead : frameHead cwMaxPayloadSize (s.clients i).inbuf with
  | more =>
    rw [drainTurn_eq, hhead]
    exact .inl rfl
  | bad =>
    have hdrain : (drainTurn s i).2 = rejectHeader s i := by rw [drainTurn_eq, hhead]
    obtain ⟨es, hsaid⟩ := (rejectHeader_actions hl).said
    refine .inr ⟨⟨(s.clients i).conn, none, es.flatMap Effect.output⟩, hl, rfl, rfl, ?_, hhead,
      ⟨.malformed (s.clients i).conn, es, ?_, rfl, hsaid.begins, rfl⟩, hsaid.sends⟩
    · rw [hdrain]
      exact hsaid.live
    · rw [hdrain, hsaid.trace, Server.emit_trace, List.append_assoc]
      rfl
  | item frame n =>
    have hdrain : (drainTurn s i).2 = (serveFrame s i frame n).2 := by rw [drainTurn_eq, hhead]
    obtain ⟨es, hsaid⟩ := (handleFrame_actions (i := i)
      (s := s.emit (.handled (s.clients i).conn frame)) frame.type frame.payload hl).said
    refine .inr ⟨⟨(s.clients i).conn, some frame, es.flatMap Effect.output⟩, hl, rfl, rfl,
      fun j hj => ?_, ⟨n, hhead⟩,
      ⟨.handled (s.clients i).conn frame, es, ?_, rfl, hsaid.begins, rfl⟩, hsaid.sends⟩
    · obtain ⟨inbuf, hclient⟩ := serveFrame_clients s i frame n j
      rw [hdrain, hclient] at hj
      rw [hdrain, hclient]
      exact hsaid.live j hj
    · rw [hdrain, serveFrame_trace, hsaid.trace, Server.emit_trace, List.append_assoc]
      rfl

/-- **Every step is quiet or a turn.** -/
theorem Step.quiet_or_turn {s t : Server} (h : Step s t) :
    Silent Effect.IsTurn s t ∨ ∃ i turn, TakesTurn s t i turn := by
  have hsilent : ∀ {e : Effect}, e.begins = none → e.output = [] → ¬ e.IsTurn := by
    rintro e hbegins houtput (h | h)
    · exact h hbegins
    · exact h houtput
  cases h with
  | accept hfd =>
    unfold acceptConnection
    split
    · exact .inl (.of_eq rfl)
    · exact .inl (.occupySlot (hsilent rfl rfl))
  | recv _ _ _ => exact .inl (.concat rfl (hsilent rfl rfl))
  | drain hl =>
    rcases drainTurn_quiet_or_turn hl with heq | ⟨turn, hturn⟩
    · rw [heq]
      exact .inl (.of_eq rfl)
    · exact .inr ⟨_, turn, hturn⟩
  | send _ hout _ _ => exact .inl (.concat (takeSent_trace hout) (hsilent rfl rfl))
  | disconnect hl => exact .inl (.concat (disconnectClient_trace _ _ _ hl) (hsilent rfl rfl))

theorem Step.trace_prefix {s t : Server} (h : Step s t) : s.trace <+: t.trace := by
  rcases h.quiet_or_turn with ⟨es, htrace, -⟩ | ⟨i, turn, hturn⟩
  · exact ⟨es, htrace.symm⟩
  · obtain ⟨e, es, htrace, -⟩ := hturn.trace
    exact ⟨e :: es, htrace.symm⟩

/-- A client that is live after a step was so before, unless the step accepted it. -/
theorem Step.live_before {s t : Server} (h : Step s t) {j : Slot} (hj : (t.clients j).Live) :
    ((s.clients j).Live ∧ (t.clients j).conn = (s.clients j).conn) ∨
      (t.clients j).conn = s.stats.totalConnections + 1 := by
  have hupdate : ∀ {i : Slot} {c : Client}, t.clients = Function.update s.clients i c →
      (c.Live → (s.clients i).Live ∧ c.conn = (s.clients i).conn) →
      (s.clients j).Live ∧ (t.clients j).conn = (s.clients j).conn := by
    intro i c hclients hc
    rw [hclients] at hj ⊢
    rcases eq_or_ne j i with rfl | hne
    · rw [Function.update_self] at hj ⊢
      exact hc hj
    · rw [Function.update_of_ne hne] at hj ⊢
      exact ⟨hj, rfl⟩
  cases h with
  | accept hfd =>
    unfold acceptConnection at hj ⊢
    split at hj
    · exact .inl ⟨hj, rfl⟩
    · next slot _ =>
      rcases eq_or_ne j slot with rfl | hne
      · refine .inr ?_
        show (Function.update s.clients j _ j).conn = _
        rw [Function.update_self]
      · refine .inl ?_
        have hsame : ∀ fd, (occupySlot s slot fd).clients j = s.clients j := fun fd =>
          Function.update_of_ne hne ..
        rw [hsame] at hj ⊢
        exact ⟨hj, rfl⟩
  | recv hl _ _ => exact .inl (hupdate rfl fun _ => ⟨hl, rfl⟩)
  | drain hl =>
    rcases drainTurn_quiet_or_turn hl with heq | ⟨turn, hturn⟩
    · rw [heq] at hj ⊢
      exact .inl ⟨hj, rfl⟩
    · exact .inl (hturn.after j hj)
  | send hl hout _ _ =>
    obtain ⟨out, queuedBytes, hclients, -⟩ := takeSent_clients hout
    exact .inl (hupdate hclients fun _ => ⟨hl, rfl⟩)
  | disconnect hl =>
    exact .inl (hupdate (disconnectClient_clients ..) fun hc => absurd hc (Client.not_live_reset _))

namespace TakesTurn

variable {s t : Server} {i : Slot} {turn : Turn}

theorem turns_eq (h : TakesTurn s t i turn) : turns t.trace = turns s.trace ++ [turn] := by
  obtain ⟨e, es, htrace, hbegins, hes, houtput⟩ := h.trace
  have hnone : outputBefore (e :: es) = [] := by
    rw [outputBefore, if_neg (by rw [hbegins]; exact Option.some_ne_none _)]
  have hone : turns (e :: es) = [turn] := by
    rw [turns, hbegins]
    show (⟨turn.conn, turn.request, outputBefore es⟩ : Turn) :: turns es = [turn]
    rw [turns_of_begins hes, outputBefore_eq hes, houtput]
  rw [htrace, turns_append hnone, hone]

theorem enqueuedTo_eq (h : TakesTurn s t i turn) (k : ℕ) :
    enqueuedTo k t.trace = enqueuedTo k s.trace ++ turn.outputTo k := by
  obtain ⟨e, es, htrace, hbegins, hes, houtput⟩ := h.trace
  have hfirst : e.enqueuedTo k = [] := by
    cases e with
    | enqueued => cases hbegins
    | _ => rfl
  have hrest : es.flatMap (Effect.enqueuedTo k) = turn.outputTo k := by
    rw [Turn.outputTo, ← houtput, List.filterMap_flatMap]
    exact List.flatMap_congr fun e' _ => Effect.enqueuedTo_eq k e'
  rw [enqueuedTo, htrace, List.flatMap_append, List.flatMap_cons, hfirst, List.nil_append, hrest]
  rfl

theorem handledBy_eq (h : TakesTurn s t i turn) (k : ℕ) :
    handledBy k t.trace = handledBy k s.trace ++
      if turn.conn = k then turn.request.toList else [] := by
  obtain ⟨e, es, htrace, hbegins, hes, -⟩ := h.trace
  have hfirst : e.handledBy k = if turn.conn = k then turn.request.toList else [] := by
    cases e with
    | handled c frame =>
      obtain ⟨rfl, hr⟩ := Prod.mk.inj (Option.some.inj hbegins)
      rw [← hr]
      rfl
    | malformed c =>
      obtain ⟨rfl, hr⟩ := Prod.mk.inj (Option.some.inj hbegins)
      rw [← hr]
      exact (ite_self _).symm
    | _ => cases hbegins
  have hrest : es.flatMap (Effect.handledBy k) = [] :=
    List.flatMap_eq_nil_iff.mpr fun e' he' => Effect.handledBy_of_begins (hes e' he')
  rw [handledBy, htrace, List.flatMap_append, List.flatMap_cons, hfirst, hrest, List.append_nil]
  rfl

end TakesTurn

end Core
end ChannelWire
