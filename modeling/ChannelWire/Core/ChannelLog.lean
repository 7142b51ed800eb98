import ChannelWire.Core.Broadcast
import ChannelWire.Core.Runs
import ChannelWire.Protocol.Strings

/-!
# The channel log

Every accepted `SAY` is an entry of one log, the `said` effects of the trace, with the
connections that were live, registered and joined to its channel at that time.  The `CHAT`
frames a connection gets are the entries meant for it, in the order of the log; at most one
entry is missing at the end, the one for which its queue had no room (`LogOk`).

A broadcast keeps this because each connection sees its own turn of the loop only; every other
step of the server neither says anything nor enqueues a `CHAT` frame.
-/

namespace ChannelWire
namespace Core

open LinkedQueue

/-- The payload of the `CHAT` frame for an entry. -/
def ChatEntry.encode (e : ChatEntry) : Bytes :=
  ([e.channel, e.sender, e.text].map stringField).flatten

namespace Effect

/-- The entry the effect adds to the log. -/
def entry : Effect → List ChatEntry
  | said _ e _ => [e]
  | _ => []

/-- The entry, when it is meant for `k`. -/
def dueTo (k : ℕ) : Effect → List ChatEntry
  | said _ e members => if k ∈ members then [e] else []
  | _ => []

/-- The payload of a `CHAT` frame enqueued to `k`. -/
def chatTo (k : ℕ) : Effect → List Bytes
  | enqueued c frame => if c = k ∧ frame.type = ServerMsgType.chat.toByte then [frame.payload] else []
  | _ => []

/-- The payload of a `CHAT` frame for which `k` had no room. -/
def chatRefusedTo (k : ℕ) : Effect → List Bytes
  | refused c frame => if c = k ∧ frame.type = ServerMsgType.chat.toByte then [frame.payload] else []
  | _ => []

/-- The effect belongs to the broadcast of a text. -/
def IsChat : Effect → Prop
  | said _ _ _ => True
  | enqueued _ frame => frame.type = ServerMsgType.chat.toByte
  | refused _ frame => frame.type = ServerMsgType.chat.toByte
  | _ => False

variable {k : ℕ} {e : Effect}

theorem entry_of_not_isChat (h : ¬ e.IsChat) : e.entry = [] := by
  cases e <;> first | rfl | exact absurd trivial h

theorem dueTo_of_not_isChat (h : ¬ e.IsChat) : e.dueTo k = [] := by
  cases e <;> first | rfl | exact absurd trivial h

theorem chatTo_of_not_isChat (h : ¬ e.IsChat) : e.chatTo k = [] := by
  cases e <;> first | rfl | exact if_neg fun hc => h hc.2

theorem chatRefusedTo_of_not_isChat (h : ¬ e.IsChat) : e.chatRefusedTo k = [] := by
  cases e <;> first | rfl | exact if_neg fun hc => h hc.2

theorem chatTo_of_not_mentions (h : ¬ e.Mentions k) : e.chatTo k = [] := by
  cases e <;> first | rfl | exact if_neg fun hc => h hc.1

theorem chatRefusedTo_of_not_mentions (h : ¬ e.Mentions k) : e.chatRefusedTo k = [] := by
  cases e <;> first | rfl | exact if_neg fun hc => h hc.1

end Effect

/-- **The log**: the accepted texts, in the order in which they were accepted. -/
def log (trace : List Effect) : List ChatEntry := trace.flatMap Effect.entry

/-- The entries meant for connection `k`. -/
def dueTo (k : ℕ) (trace : List Effect) : List ChatEntry := trace.flatMap (Effect.dueTo k)

/-- The payloads of the `CHAT` frames enqueued to `k`. -/
def chatsTo (k : ℕ) (trace : List Effect) : List Bytes := trace.flatMap (Effect.chatTo k)

/-- The payloads of the `CHAT` frames for which `k` had no room. -/
def chatsRefusedTo (k : ℕ) (trace : List Effect) : List Bytes :=
  trace.flatMap (Effect.chatRefusedTo k)

/-- The `CHAT` frames among the frames enqueued to `k`. -/
theorem chatsTo_eq (k : ℕ) (trace : List Effect) :
    chatsTo k trace = ((enqueuedTo k trace).filter fun f =>
      f.type = ServerMsgType.chat.toByte).map Frame.payload := by
  rw [chatsTo, enqueuedTo, List.filter_flatMap, List.map_flatMap]
  refine List.flatMap_congr fun e _ => ?_
  cases e with
  | enqueued c frame =>
    simp only [Effect.chatTo, Effect.enqueuedTo]
    by_cases hc : c = k <;> by_cases ht : frame.type = ServerMsgType.chat.toByte <;> simp [hc, ht]
  | _ => rfl

/-- What is meant for a connection is a part of the log, in the log's order. -/
theorem dueTo_sublist_log (k : ℕ) (trace : List Effect) :
    (dueTo k trace).Sublist (log trace) := by
  induction trace with
  | nil => exact List.Sublist.refl _
  | cons e trace ih =>
    rw [dueTo, log, List.flatMap_cons, List.flatMap_cons]
    refine List.Sublist.append ?_ ih
    cases e with
    | said c entry members =>
      simp only [Effect.dueTo, Effect.entry]
      split_ifs
      · exact List.Sublist.refl _
      · exact List.nil_sublist _
    | _ => exact List.Sublist.refl _

/-! ## The invariant -/

/-- **The log invariant.**  What was meant for a connection was enqueued to it, in this order,
or refused; at most one entry was refused, and then the connection was closed for it. -/
structure LogOk (s : Server) : Prop where
  due : ∀ k, (dueTo k s.trace).map ChatEntry.encode = chatsTo k s.trace ++ chatsRefusedTo k s.trace
  live : ∀ i, (s.clients i).Live → chatsRefusedTo (s.clients i).conn s.trace = []
  once : ∀ k, (chatsRefusedTo k s.trace).length ≤ 1
  overflow : ∀ k, chatsRefusedTo k s.trace ≠ [] → .closed k .queueOverflow ∈ s.trace
  sized : ∀ e ∈ log s.trace, ∀ v ∈ [e.channel, e.sender, e.text], v.length ≤ cwMaxStringSize

/-- To an observer of the broadcasts nothing happened. -/
abbrev ChatUnseen : Server → Server → Prop := Unseen (fun _ => ()) Effect.IsChat

theorem LogOk.unseen {s t : Server} (hs : LogOk s) (h : ChatUnseen s t) : LogOk t := by
  have hdue : ∀ k, dueTo k t.trace = dueTo k s.trace := fun k =>
    h.silent.flatMap_eq fun e => Effect.dueTo_of_not_isChat
  have hto : ∀ k, chatsTo k t.trace = chatsTo k s.trace := fun k =>
    h.silent.flatMap_eq fun e => Effect.chatTo_of_not_isChat
  have hrefused : ∀ k, chatsRefusedTo k t.trace = chatsRefusedTo k s.trace := fun k =>
    h.silent.flatMap_eq fun e => Effect.chatRefusedTo_of_not_isChat
  have hlog : log t.trace = log s.trace := h.silent.flatMap_eq fun e => Effect.entry_of_not_isChat
  refine ⟨fun k => ?_, fun i hi => ?_, fun k => ?_, fun k hk => ?_, ?_⟩
  · rw [hdue, hto, hrefused]
    exact hs.due k
  · obtain ⟨hi', hconn, -⟩ := h.live i hi
    rw [hconn, hrefused]
    exact hs.live i hi'
  · rw [hrefused]
    exact hs.once k
  · rw [hrefused] at hk
    exact h.silent.mem_trace (hs.overflow k hk)
  · rw [hlog]
    exact hs.sized

/-- Only a `SAY` concerns `CHAT` frames. -/
theorem Action.chatUnseen {r : Request} {s t : Server} (hr : r.type ≠ ClientMsgType.say.toByte)
    (h : Action r s t) : ChatUnseen s t := by
  have hchat : ∀ {i : Slot} {type : ServerMsgType} {payload : Bytes}, r.Emits i type payload →
      (⟨type.toByte, payload⟩ : Frame).type ≠ ServerMsgType.chat.toByte := fun ht heq => by
    obtain rfl := ServerMsgType.toByte_inj.mp heq
    exact hr ht.1
  cases h with
  | push ht hl _ _ => exact .push hl (fun _ _ _ => rfl) (hchat ht)
  | drop ht hl => exact .drop hl (hchat ht) id
  | rename _ hl _ _ => exact .update rfl rfl hl rfl rfl
  | openChannel _ _ _ => exact .of_eq rfl rfl
  | join hl _ _ _ => exact .update rfl rfl hl rfl rfl
  | switch hl _ _ _ => exact .update rfl rfl hl rfl rfl
  | leave hl _ => exact .update rfl rfl hl rfl rfl
  | count _ _ => exact .of_eq rfl rfl
  | quit hl _ => exact .disconnect hl id
  | announce _ _ hsay _ _ _ => exact absurd hsay hr

theorem Actions.chatUnseen {r : Request} {s t : Server}
    (hr : r.type ≠ ClientMsgType.say.toByte) (h : Actions r s t) : ChatUnseen s t :=
  .of_actions (fun _ _ => Action.chatUnseen hr) h

theorem error_chatUnseen {s : Server} {i : Slot} {text : Bytes} (hl : (s.clients i).Live) :
    ChatUnseen s (safeEnqueueText s i .error text) := by
  have hr : (0 : UInt8) ≠ ClientMsgType.say.toByte := by decide
  exact Actions.chatUnseen (r := request s i 0 []) hr (error_actions hl)

/-! ## One broadcast -/

/-- What connection `k` gets from a broadcast: nothing, the frame, or the end for lack of room. -/
inductive Outcome (k : ℕ) (payload : Bytes) (s t : Server) : Prop where
  | delivered : chatsTo k t.trace = chatsTo k s.trace ++ [payload] →
      chatsRefusedTo k t.trace = chatsRefusedTo k s.trace → Outcome k payload s t
  | overflow : chatsTo k t.trace = chatsTo k s.trace →
      chatsRefusedTo k t.trace = chatsRefusedTo k s.trace ++ [payload] →
      .closed k .queueOverflow ∈ t.trace → (∀ j, (t.clients j).Live → (t.clients j).conn ≠ k) →
      Outcome k payload s t

namespace Outcome

variable {k : ℕ} {payload : Bytes} {s t u : Server}

theorem of_elsewhere_left (h : Elsewhere k s t) (ho : Outcome k payload t u) :
    Outcome k payload s u := by
  have hto : chatsTo k t.trace = chatsTo k s.trace :=
    h.flatMap_eq fun e => Effect.chatTo_of_not_mentions
  have hrefused : chatsRefusedTo k t.trace = chatsRefusedTo k s.trace :=
    h.flatMap_eq fun e => Effect.chatRefusedTo_of_not_mentions
  cases ho with
  | delivered h1 h2 => exact .delivered (by rw [h1, hto]) (by rw [h2, hrefused])
  | overflow h1 h2 h3 h4 => exact .overflow (by rw [h1, hto]) (by rw [h2, hrefused]) h3 h4

theorem of_elsewhere_right (ho : Outcome k payload s t) (h : Elsewhere k t u) :
    Outcome k payload s u := by
  have hto : chatsTo k u.trace = chatsTo k t.trace :=
    h.flatMap_eq fun e => Effect.chatTo_of_not_mentions
  have hrefused : chatsRefusedTo k u.trace = chatsRefusedTo k t.trace :=
    h.flatMap_eq fun e => Effect.chatRefusedTo_of_not_mentions
  cases ho with
  | delivered h1 h2 => exact .delivered (by rw [hto, h1]) (by rw [hrefused, h2])
  | overflow h1 h2 h3 h4 =>
    refine .overflow (by rw [hto, h1]) (by rw [hrefused, h2]) (h.mem_trace h3) fun j hj => ?_
    obtain ⟨hj', hconn⟩ := h.live j hj
    rw [hconn]
    exact h4 j hj'

end Outcome

/-- The turn of the slot itself. -/
theorem enqueue_outcome {s : Server} {i : Slot} (payload : Bytes) (hl : (s.clients i).Live)
    (hs : OnlyAt (s.clients i).conn i s) :
    Outcome (s.clients i).conn payload s (enqueueOrDisconnect s i .chat payload) := by
  by_cases h : Accepts s i payload
  · rw [enqueueOrDisconnect_of_accepts h]
    refine .delivered ?_ ?_
    · rw [chatsTo, pushFrame_trace, List.flatMap_append, List.flatMap_singleton]
      exact congrArg _ (if_pos ⟨rfl, rfl⟩)
    · rw [chatsRefusedTo, pushFrame_trace, List.flatMap_append]
      exact List.append_nil _
  · obtain ⟨heap, hq⟩ := enqueueOrDisconnect_of_not_accepts .chat h
    rw [hq]
    refine .overflow ?_ ?_ ?_ fun j hj => ?_
    · rw [chatsTo, drop_trace hl, List.flatMap_append]
      exact List.append_nil _
    · rw [chatsRefusedTo, drop_trace hl, List.flatMap_append, List.flatMap_append,
        List.flatMap_singleton]
      exact congrArg _ (congrArg (· ++ _) (if_pos ⟨rfl, rfl⟩))
    · rw [drop_trace hl]
      simp
    · rw [overflowDisconnect_clients] at hj ⊢
      rcases eq_or_ne j i with rfl | hne
      · rw [Function.update_self] at hj
        exact absurd hj (Client.not_live_reset _)
      · rw [Function.update_of_ne hne] at hj ⊢
        exact hs j hne hj

/-- **The loop of `broadcast_chat`** delivers to a member, or closes it for lack of room. -/
theorem chatLoop_member {s : Server} {i : Slot} {idx : ℕ} (payload : Bytes)
    (hn : OnlyAt (s.clients i).conn i s) (hm : (s.clients i).isMember idx = true) :
    Outcome (s.clients i).conn payload s (chatLoop s idx payload) := by
  have hl := (Client.isMember_iff.mp hm).1
  obtain ⟨t, hst, htu⟩ := chatLoop_turn idx payload hn
  have ht : t.clients i = s.clients i := hst.clients i hl rfl
  rw [chatTurn, if_pos (by rw [ht]; exact hm)] at htu
  have hturn := enqueue_outcome payload (s := t) (i := i) (by rw [ht]; exact hl)
    (by rw [ht]; exact hn.elsewhere hst)
  rw [ht] at hturn
  exact (Outcome.of_elsewhere_left hst hturn).of_elsewhere_right htu

/-- A connection that is no member sees nothing of the loop. -/
theorem chatLoop_not_member {s : Server} {k idx : ℕ} (payload : Bytes) (hn : Numbered s)
    (hk : ∀ i ∈ members s idx, (s.clients i).conn ≠ k) :
    Elsewhere k s (chatLoop s idx payload) := by
  by_cases hlive : ∃ i, (s.clients i).Live ∧ (s.clients i).conn = k
  · obtain ⟨i, hl, rfl⟩ := hlive
    obtain ⟨t, hst, htu⟩ := chatLoop_turn idx payload (hn.onlyAt hl)
    have ht : t.clients i = s.clients i := hst.clients i hl rfl
    have hm : (t.clients i).isMember idx ≠ true := fun hm =>
      hk i (mem_members.mpr (Client.isMember_iff.mp (ht ▸ hm))) rfl
    rw [chatTurn, if_neg hm] at htu
    exact hst.trans htu
  · push Not at hlive
    exact chatLoop_elsewhere idx payload hlive

/-- The loop of `broadcast_chat` accepts no text, and opens no connection. -/
theorem chatLoop_unseen (idx : ℕ) (payload : Bytes) (s : Server) :
    Unseen (fun _ => ()) (fun e => e.entry ≠ []) s (chatLoop s idx payload) := by
  refine Transition.foldl_invisible (P := fun _ => True)
    (R := Unseen (fun _ => ()) (fun e => e.entry ≠ [])) .refl (fun _ _ _ => .trans)
    (fun _ _ _ _ => trivial) (fun t _ j _ => ?_) trivial
  unfold chatTurn
  split_ifs with hm
  · have hl := (Client.isMember_iff.mp hm).1
    by_cases h : Accepts t j payload
    · rw [enqueueOrDisconnect_of_accepts h]
      exact .push hl (fun _ _ _ => rfl) fun he => he rfl
    · obtain ⟨heap, hq⟩ := enqueueOrDisconnect_of_not_accepts .chat h
      rw [hq]
      exact .drop hl (fun he => he rfl) fun he => he rfl
  · exact .refl t

/-- What the record of an accepted text, and then the loop, add to the observations. -/
theorem dueTo_broadcast (s : Server) (i : Slot) (idx : ℕ) (entry : ChatEntry) (payload : Bytes)
    (k : ℕ) :
    dueTo k (chatLoop (announce s i idx entry) idx payload).trace =
      dueTo k s.trace ++ if k ∈ memberConns s idx then [entry] else [] := by
  have hsaid : ∀ e : Effect, ¬ e.entry ≠ [] → e.dueTo k = [] := by
    intro e he
    cases e <;> first | rfl | exact absurd (List.cons_ne_nil _ _) he
  rw [dueTo, (chatLoop_unseen idx payload _).silent.flatMap_eq hsaid, announce, Server.emit_trace,
    List.flatMap_append, List.flatMap_singleton]
  rfl

theorem log_broadcast (s : Server) (i : Slot) (idx : ℕ) (entry : ChatEntry) (payload : Bytes) :
    log (chatLoop (announce s i idx entry) idx payload).trace = log s.trace ++ [entry] := by
  rw [log, (chatLoop_unseen idx payload _).silent.flatMap_eq fun e he => not_not.mp he, announce,
    Server.emit_trace, List.flatMap_append, List.flatMap_singleton]
  rfl

theorem chatsTo_announce (s : Server) (i : Slot) (idx : ℕ) (entry : ChatEntry) (k : ℕ) :
    chatsTo k (announce s i idx entry).trace = chatsTo k s.trace := by
  rw [announce, Server.emit_trace, chatsTo, List.flatMap_append]
  exact List.append_nil _

theorem chatsRefusedTo_announce (s : Server) (i : Slot) (idx : ℕ) (entry : ChatEntry) (k : ℕ) :
    chatsRefusedTo k (announce s i idx entry).trace = chatsRefusedTo k s.trace := by
  rw [announce, Server.emit_trace, chatsRefusedTo, List.flatMap_append]
  exact List.append_nil _

/-- **A broadcast keeps the log invariant.** -/
theorem LogOk.broadcast {s : Server} {i : Slot} {entry : ChatEntry} (hs : LogOk s)
    (hn : Numbered s) (hl : (s.clients i).Live) (idx : ℕ)
    (hsender : entry.sender = (s.clients i).username)
    (hsized : ∀ v ∈ [entry.channel, entry.sender, entry.text], v.length ≤ cwMaxStringSize) :
    LogOk (chatLoop (announce s i idx entry) idx entry.encode) := by
  have hn' : Numbered (announce s i idx entry) := (announce_action [] idx entry hsender hl).numbered hn
  have hloop := chatLoop_unseen idx entry.encode (announce s i idx entry)
  have hdue := dueTo_broadcast s i idx entry entry.encode
  have hlog := log_broadcast s i idx entry entry.encode
  have hmember : ∀ k ∈ memberConns s idx, chatsRefusedTo k s.trace = [] ∧
      Outcome k entry.encode (announce s i idx entry)
        (chatLoop (announce s i idx entry) idx entry.encode) := by
    intro k hk
    obtain ⟨j, hj, rfl⟩ := mem_memberConns.mp hk
    have hjl := (mem_members.mp hj).1
    exact ⟨hs.live j hjl, chatLoop_member _ (hn'.onlyAt hjl)
      (Client.isMember_iff.mpr (mem_members.mp hj))⟩
  have hother : ∀ k, k ∉ memberConns s idx → Elsewhere k (announce s i idx entry)
      (chatLoop (announce s i idx entry) idx entry.encode) := fun k hk =>
    chatLoop_not_member _ hn' fun j hj hjk => hk (mem_memberConns.mpr ⟨j, hj, hjk⟩)
  generalize chatLoop (announce s i idx entry) idx entry.encode = t at hloop hdue hlog hmember hother ⊢
  have hothers : ∀ k, k ∉ memberConns s idx → chatsTo k t.trace = chatsTo k s.trace ∧
      chatsRefusedTo k t.trace = chatsRefusedTo k s.trace := by
    intro k hk
    rw [← chatsTo_announce s i idx entry k, ← chatsRefusedTo_announce s i idx entry k]
    exact ⟨(hother k hk).flatMap_eq fun e => Effect.chatTo_of_not_mentions,
      (hother k hk).flatMap_eq fun e => Effect.chatRefusedTo_of_not_mentions⟩
  -- a member gets the frame, or is closed and misses exactly this one
  have hmembers : ∀ k ∈ memberConns s idx, chatsRefusedTo k s.trace = [] ∧
      ((chatsTo k t.trace = chatsTo k s.trace ++ [entry.encode] ∧
          chatsRefusedTo k t.trace = []) ∨
        (chatsTo k t.trace = chatsTo k s.trace ∧ chatsRefusedTo k t.trace = [entry.encode] ∧
          .closed k .queueOverflow ∈ t.trace ∧
          ∀ j, (t.clients j).Live → (t.clients j).conn ≠ k)) := by
    intro k hk
    obtain ⟨hnone, ho⟩ := hmember k hk
    refine ⟨hnone, ?_⟩
    cases ho with
    | delivered hto hrefused =>
      rw [chatsTo_announce] at hto
      rw [chatsRefusedTo_announce, hnone] at hrefused
      exact .inl ⟨hto, hrefused⟩
    | overflow hto hrefused hclosed hgone =>
      rw [chatsTo_announce] at hto
      rw [chatsRefusedTo_announce, hnone, List.nil_append] at hrefused
      exact .inr ⟨hto, hrefused, hclosed, hgone⟩
  refine ⟨fun k => ?_, fun j hj => ?_, fun k => ?_, fun k hk => ?_, fun e he => ?_⟩
  · rw [hdue]
    by_cases hk : k ∈ memberConns s idx
    · obtain ⟨hnone, ⟨hto, hrefused⟩ | ⟨hto, hrefused, -⟩⟩ := hmembers k hk <;>
        rw [if_pos hk, List.map_append, hs.due, hnone, hto, hrefused] <;> simp
    · rw [if_neg hk, List.append_nil, (hothers k hk).1, (hothers k hk).2]
      exact hs.due k
  · obtain ⟨hj', hconn, -⟩ := hloop.live j hj
    by_cases hk : (t.clients j).conn ∈ memberConns s idx
    · obtain ⟨-, ⟨-, hrefused⟩ | ⟨-, -, -, hgone⟩⟩ := hmembers _ hk
      · exact hrefused
      · exact absurd rfl (hgone j hj)
    · rw [(hothers _ hk).2, hconn]
      exact hs.live j hj'
  · by_cases hk : k ∈ memberConns s idx
    · obtain ⟨-, ⟨-, hrefused⟩ | ⟨-, hrefused, -⟩⟩ := hmembers k hk <;> simp [hrefused]
    · rw [(hothers k hk).2]
      exact hs.once k
  · by_cases hmem : k ∈ memberConns s idx
    · obtain ⟨-, ⟨-, hrefused⟩ | ⟨-, -, hclosed, -⟩⟩ := hmembers k hmem
      · exact absurd hrefused hk
      · exact hclosed
    · rw [(hothers k hmem).2] at hk
      exact hloop.silent.mem_trace (List.mem_append_left _ (hs.overflow k hk))
  · rw [hlog, List.mem_append, List.mem_singleton] at he
    rcases he with he | rfl
    · exact hs.sized e he
    · exact hsized

/-! ## Every run -/

theorem broadcastChat_logOk {s : Server} {i : Slot} (text : Bytes) (hs : LogOk s)
    (hn : Numbered s) (hl : (s.clients i).Live) : LogOk (broadcastChat s i text) := by
  have herror : ∀ text, LogOk (safeEnqueueText s i .error text) := fun text =>
    hs.unseen (error_chatUnseen hl)
  unfold broadcastChat
  simp only
  split
  · exact herror _
  · split
    · exact herror _
    · next idx _ _ payload hwrite =>
      obtain ⟨hpayload, hsized, -⟩ := cwWriteStrings_eq_some hwrite
      rw [List.nil_append] at hpayload
      subst hpayload
      exact (hs.broadcast hn hl idx rfl hsized).unseen
        (.of_eq (Server.setStats_clients ..) (Server.setStats_trace ..))

theorem handleFrame_logOk {s : Server} {i : Slot} (type : UInt8) (payload : Bytes) (hs : LogOk s)
    (hn : Numbered s) (hl : (s.clients i).Live) : LogOk (handleFrame s i type payload) := by
  have hactions := handleFrame_actions type payload hl
  by_cases ht : type = ClientMsgType.say.toByte
  · subst ht
    have herror : ∀ text, LogOk (safeEnqueueText s i .error text) := fun text =>
      hs.unseen (error_chatUnseen hl)
    unfold handleFrame
    rw [ClientMsgType.ofByte_toByte]
    simp only [handleSay]
    split_ifs
    · exact herror _
    · exact herror _
    · split
      · exact herror _
      · exact broadcastChat_logOk _ hs hn hl
  · exact hs.unseen (hactions.chatUnseen ht)

theorem LogOk.occupy {s : Server} {slot : Slot} {fd : ℕ} (hs : LogOk s) (hn : Numbered s) :
    LogOk (occupySlot s slot fd) := by
  have hsilent : Silent Effect.IsChat s (occupySlot s slot fd) := .occupySlot id
  have hdue : ∀ k, dueTo k (occupySlot s slot fd).trace = dueTo k s.trace := fun k =>
    hsilent.flatMap_eq fun e => Effect.dueTo_of_not_isChat
  have hto : ∀ k, chatsTo k (occupySlot s slot fd).trace = chatsTo k s.trace := fun k =>
    hsilent.flatMap_eq fun e => Effect.chatTo_of_not_isChat
  have hrefused : ∀ k, chatsRefusedTo k (occupySlot s slot fd).trace =
      chatsRefusedTo k s.trace := fun k =>
    hsilent.flatMap_eq fun e => Effect.chatRefusedTo_of_not_isChat
  have hlog : log (occupySlot s slot fd).trace = log s.trace :=
    hsilent.flatMap_eq fun e => Effect.entry_of_not_isChat
  refine ⟨fun k => ?_, fun j hj => ?_, fun k => ?_, fun k hk => ?_, ?_⟩
  · rw [hdue, hto, hrefused]
    exact hs.due k
  · rw [hrefused]
    rcases eq_or_ne j slot with rfl | hne
    · have hself : (occupySlot s j fd).clients j =
          { Client.blank with fd := fd, conn := s.stats.totalConnections + 1 } :=
        Function.update_self ..
      rw [hself]
      exact flatMap_eq_nil_of_not_mentions (fun e => Effect.chatRefusedTo_of_not_mentions)
        (hn.not_mentions (Nat.lt_succ_self _))
    · have hother : (occupySlot s slot fd).clients j = s.clients j := Function.update_of_ne hne ..
      rw [hother] at hj ⊢
      exact hs.live j hj
  · rw [hrefused]
    exact hs.once k
  · rw [hrefused] at hk
    exact hsilent.mem_trace (hs.overflow k hk)
  · rw [hlog]
    exact hs.sized

theorem serveFrame_logOk {s : Server} {i : Slot} (frame : Frame) (n : ℕ) (hs : LogOk s)
    (hn : Numbered s) (hl : (s.clients i).Live) : LogOk (serveFrame s i frame n).2 := by
  have hmark : LogOk (s.emit (.handled (s.clients i).conn frame)) :=
    hs.unseen (.emit rfl rfl id)
  have hframe := handleFrame_logOk frame.type frame.payload hmark ((Move.handle hl).numbered hn) hl
  unfold serveFrame
  simp only
  split_ifs with hlive
  · exact hframe.unseen (.update rfl rfl hlive rfl rfl)
  · exact hframe

theorem Step.logOk {s t : Server} (h : Step s t) (hs : LogOk s) (hn : Numbered s) : LogOk t := by
  cases h with
  | accept _ =>
    unfold acceptConnection
    split
    · exact hs
    · exact hs.occupy hn
  | recv hl _ _ =>
    exact hs.unseen (.setClient rfl (fun _ => ⟨hl, rfl, rfl⟩) (.concat rfl id))
  | drain hl =>
    rw [drainTurn_eq]
    split
    · exact hs
    · have hquiet : (0 : UInt8) ≠ ClientMsgType.say.toByte := by decide
      exact hs.unseen (.rejectHeader (fun _ _ => Action.chatUnseen hquiet) hl id)
    · exact serveFrame_logOk _ _ hs hn hl
  | send hl hout _ _ =>
    exact hs.unseen (.takeSent hl hout (fun _ _ _ => rfl) fun _ => id)
  | disconnect hl => exact hs.unseen (.disconnect hl id)

theorem logOk {s : Server} (h : Reachable s) : LogOk s := by
  refine Transition.Reachable.invariant ?_
    (fun s t hr hs hst => Step.logOk hst hs (numbered (Reachable.moveReachable hr))) h
  rintro _ ⟨maxQueueBytes, heap, -, rfl⟩
  exact ⟨fun _ => rfl, fun i hi => absurd hi Client.not_live_blank, fun _ => Nat.zero_le _,
    fun _ hk => absurd rfl hk, fun e he => absurd he List.not_mem_nil⟩

/-- **All members see the same channel log.**  In every run and for every connection, the
payloads of the `CHAT` frames enqueued to it decode, in queue order, to the entries of the log
that were accepted while it was live, registered and joined to their channel, in the order of
the log and each once; the last of these entries is missing only if the queue had no room for it
and the connection was closed for that.  What two connections receive is therefore in the order
of one log. -/
theorem same_channel_log {s : Server} (h : Reachable s) (k : ℕ) :
    (dueTo k s.trace).Sublist (log s.trace) ∧
    ∃ got lost, dueTo k s.trace = got ++ lost ∧
      (((enqueuedTo k s.trace).filter fun f => f.type = ServerMsgType.chat.toByte).map fun f =>
        splitStrings f.payload) = got.map (fun e => some [e.channel, e.sender, e.text]) ∧
      lost.length ≤ 1 ∧
      (lost ≠ [] → .closed k .queueOverflow ∈ s.trace ∧
        (chatsRefusedTo k s.trace).map splitStrings =
          lost.map fun e => some [e.channel, e.sender, e.text]) := by
  have hs := logOk h
  have hsub := dueTo_sublist_log k s.trace
  have hdecode : ∀ l : List ChatEntry, (∀ e ∈ l, e ∈ dueTo k s.trace) →
      (l.map ChatEntry.encode).map splitStrings =
        l.map fun e => some [e.channel, e.sender, e.text] := by
    intro l hl
    rw [List.map_map]
    refine List.map_congr_left fun e he => ?_
    refine splitStrings_eq_some_iff.mpr ⟨rfl, fun v hv => ?_⟩
    exact lt_of_le_of_lt (hs.sized e (hsub.subset (hl e he)) v hv) (by decide)
  obtain ⟨got, lost, hdue, hgot, hlost⟩ := List.map_eq_append_iff.mp (hs.due k)
  have hmem : ∀ e, e ∈ got ∨ e ∈ lost → e ∈ dueTo k s.trace := fun e he => by
    rw [hdue]
    exact List.mem_append.mpr he
  refine ⟨hsub, got, lost, hdue, ?_, ?_, fun hne => ⟨hs.overflow k ?_, ?_⟩⟩
  · rw [← hdecode got fun e he => hmem e (.inl he), hgot, chatsTo_eq, List.map_map]
    rfl
  · rw [← List.length_map (f := ChatEntry.encode), hlost]
    exact hs.once k
  · rw [← hlost]
    simpa using hne
  · rw [← hlost, hdecode lost fun e he => hmem e (.inr he)]

/-- `bob` was sent the text of `alice`, and it is the log. -/
theorem same_channel_log_room :
    (dueTo 2 roomWithText.trace).length = 1 ∧
      (((enqueuedTo 2 roomWithText.trace).filter fun f =>
        f.type = ServerMsgType.chat.toByte).map fun f => splitStrings f.payload) =
        (dueTo 2 roomWithText.trace).map fun e => some [e.channel, e.sender, e.text] := by
  obtain ⟨-, got, lost, hdue, hgot, -, hlost⟩ := same_channel_log reachable_roomWithText 2
  have hnone : lost = [] := by
    by_contra hne
    exact absurd (hlost hne).1 (by decide +kernel)
  refine ⟨by decide +kernel, ?_⟩
  rw [hgot, hdue, hnone, List.append_nil]

end Core
end ChannelWire
