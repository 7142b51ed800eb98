import ChannelWire.Core.Membership
import ChannelWire.Foundation.Labelling

/-!
# Texts that come back

`postsTo k` lists the accepted texts meant for connection `k`, each with its number: its position
among all accepted texts.  The `CHAT` frames enqueued to `k` carry the first of these texts, in
this order, so the position of a `CHAT` among those of a connection tells which text it carries.

A client that says something gets its own text back, and knows it by the sender: as long as a
connection keeps its name, the texts meant for it that carry this name are its own (`OwnBySender`).
-/

namespace ChannelWire
namespace Core

open Labelling

/-- The texts meant for connection `k`, with their numbers. -/
def postsTo (k : ℕ) (trace : List Effect) : List (Post × ℕ) :=
  labelled (fun p : Post => if k ∈ p.members then [p] else []) (posts trace)

variable {s t : Server} {k n m : ℕ} {p : Post}

theorem map_fst_postsTo (k : ℕ) (trace : List Effect) :
    (postsTo k trace).map Prod.fst = postsFor k trace := by
  rw [postsTo, map_fst_labelled, postsFor]
  generalize posts trace = l
  induction l with
  | nil => rfl
  | cons p l ih =>
    rw [List.flatMap_cons, ih, List.filter_cons]
    by_cases h : k ∈ p.members <;> simp [h]

theorem mem_postsTo {trace : List Effect} :
    (p, n) ∈ postsTo k trace ↔ (posts trace)[n]? = some p ∧ k ∈ p.members := by
  rw [postsTo, mem_labelled]
  constructor
  · rintro ⟨q, hq, hp⟩
    split_ifs at hp with hk
    · obtain rfl := List.mem_singleton.mp hp
      exact ⟨hq, hk⟩
    · cases hp
  · rintro ⟨hp, hk⟩
    exact ⟨p, hp, by rw [if_pos hk]; exact List.mem_singleton_self p⟩

/-- A text is meant for a connection once. -/
theorem length_postTo_le (k : ℕ) (p : Post) :
    (if k ∈ p.members then [p] else []).length ≤ 1 := by
  split_ifs
  · exact Nat.le_refl 1
  · exact Nat.zero_le 1

theorem postsTo_inj {trace : List Effect} {i j : ℕ} {q : Post}
    (hi : (postsTo k trace)[i]? = some (p, n)) (hj : (postsTo k trace)[j]? = some (q, n)) :
    i = j := labelled_inj (length_postTo_le k) hi hj

/-- What is read of a text that was packed alone. -/
theorem readOneStringPayload_field {text out : Bytes} {cap : ℕ} (hlen : text.length < 65536)
    (h : readOneStringPayload (stringField text) cap = some out) : out = cstr text := by
  unfold readOneStringPayload at h
  by_cases hfits : text.length ≤ cwMaxStringSize ∧ text.length < cap
  · have hread := @cwReadString_stringField [] text [] cap hfits.1 hfits.2
    rw [List.append_nil, List.nil_append, List.length_nil] at hread
    rw [hread] at h
    simp only at h
    split_ifs at h
    exact (Option.some.inj h).symm
  · have hlarge : cwMaxStringSize < text.length ∨ cap ≤ text.length := by
      rwa [not_and_or, not_le, not_lt] at hfits
    have hread := @cwReadString_stringField_of_large [] text [] cap hlen hlarge
    rw [List.append_nil, List.nil_append, List.length_nil] at hread
    rw [hread] at h
    cases h

/-- The frame is a `CHAT`. -/
def isChat (frame : Frame) : Bool := frame.type == ServerMsgType.chat.toByte

theorem isChat_iff {frame : Frame} : isChat frame = true ↔ frame.type = ServerMsgType.chat.toByte :=
  beq_iff_eq

theorem filter_isChat (frames : List Frame) : frames.filter isChat =
    frames.filter fun f => f.type = ServerMsgType.chat.toByte :=
  List.filter_congr fun f _ => by rw [Bool.eq_iff_iff, isChat_iff, decide_eq_true_iff]

/-- **The position of a `CHAT` among those of a connection tells its text.** -/
theorem chat_payload (hr : Reachable s) {i : ℕ} {frame : Frame}
    (h : (enqueuedTo k s.trace)[i]? = some frame) (hchat : isChat frame = true) :
    ∃ e, (postsTo k s.trace)[((enqueuedTo k s.trace).take i).countP isChat]? = some e ∧
      frame.payload = e.1.entry.encode := by
  have hget : (((enqueuedTo k s.trace).filter isChat).map
      Frame.payload)[((enqueuedTo k s.trace).take i).countP isChat]? = some frame.payload := by
    rw [List.getElem?_map, getElem?_filter_countP h hchat]
    rfl
  rw [filter_isChat] at hget
  have hposts := getElem?_of_isPrefix (chats_isPrefix hr k) hget
  rw [← map_fst_postsTo, List.map_map, List.getElem?_map] at hposts
  obtain ⟨e, he, hpayload⟩ := Option.map_eq_some_iff.mp hposts
  exact ⟨e, he, hpayload.symm⟩

/-! ## One step -/

theorem Step.posts_prefix (h : Step s t) (hr : Reachable s) :
    Core.posts s.trace <+: Core.posts t.trace := by
  rcases h.posts hr with hsame | ⟨i, turn, frame, idx, text, -, -, -, hnew⟩
  · exact hsame ▸ List.prefix_rfl
  · rw [hnew]
    exact List.prefix_append ..

theorem Step.postsTo_prefix (h : Step s t) (hr : Reachable s) (k : ℕ) :
    postsTo k s.trace <+: postsTo k t.trace := labelled_isPrefix _ (h.posts_prefix hr)

theorem Step.handledBy_prefix (h : Step s t) (k : ℕ) :
    handledBy k s.trace <+: handledBy k t.trace := by
  obtain ⟨es, hes⟩ := h.trace_prefix
  rw [← hes, handledBy, handledBy, List.flatMap_append]
  exact List.prefix_append ..

/-- Nothing is enqueued to a connection that no live client has. -/
theorem Step.enqueuedTo_of_closed (h : Step s t) (hclosed : ∀ i, (s.clients i).Live →
    (s.clients i).conn ≠ k) : enqueuedTo k t.trace = enqueuedTo k s.trace := by
  rcases h.quiet_or_turn with hquiet | ⟨i, turn, hturn⟩
  · exact enqueuedTo_of_silent hquiet k
  · have hnone : turn.outputTo k = [] := by
      by_contra hne
      obtain ⟨frame, hframe⟩ := List.exists_mem_of_ne_nil _ hne
      obtain ⟨j, type, payload, hl, hconn, -⟩ := hturn.sends _ (mem_outputTo.mp hframe)
      exact hclosed j hl hconn
    rw [hturn.enqueuedTo_eq, hnone, List.append_nil]

/-! ## What has arrived -/

/-- The frames, the first that were enqueued to connection `k`, have the `CHAT` of text `n` among
them. -/
def Carries (k : ℕ) (trace : List Effect) (frames : List Frame) (n : ℕ) : Prop :=
  n ∈ ((postsTo k trace).take (frames.countP isChat)).map Prod.snd

instance (k : ℕ) (trace : List Effect) (frames : List Frame) (n : ℕ) :
    Decidable (Carries k trace frames n) := inferInstanceAs (Decidable (_ ∈ _))

theorem carries_iff {trace : List Effect} {frames : List Frame} : Carries k trace frames n ↔
    ∃ m p, (postsTo k trace)[m]? = some (p, n) ∧ m < frames.countP isChat := by
  rw [Carries, List.mem_map]
  constructor
  · rintro ⟨⟨p, n⟩, hmem, rfl⟩
    obtain ⟨m, hm⟩ := List.mem_iff_getElem?.mp hmem
    rw [List.getElem?_take] at hm
    split_ifs at hm with hlt
    exact ⟨m, p, hm, hlt⟩
  · rintro ⟨m, p, hp, hlt⟩
    refine ⟨(p, n), List.mem_of_getElem? (i := m) ?_, rfl⟩
    rw [List.getElem?_take, if_pos hlt]
    exact hp

theorem Carries.mono {frames frames' : List Frame} (h : Carries k s.trace frames n)
    (hposts : postsTo k s.trace <+: postsTo k t.trace) (hframes : frames <+: frames') :
    Carries k t.trace frames' n := by
  obtain ⟨m, p, hp, hm⟩ := carries_iff.mp h
  exact carries_iff.mpr
    ⟨m, p, getElem?_of_isPrefix hposts hp, hm.trans_le hframes.sublist.countP_le⟩

/-- A text that is meant for a connection but was not enqueued to it was refused, and the
connection is closed. -/
theorem closed_of_missing (hr : Reachable s) (h : (postsTo k s.trace)[m]? = some (p, n))
    (hm : (enqueuedTo k s.trace).countP isChat ≤ m) :
    ∀ i, (s.clients i).Live → (s.clients i).conn ≠ k := by
  rintro i hl rfl
  have hlog := logOk hr
  have hdue := congrArg List.length (hlog.due (s.clients i).conn)
  rw [hlog.live i hl, List.append_nil, dueTo_eq_postsFor, ← map_fst_postsTo, chatsTo_eq,
    List.length_map, List.length_map, List.length_map, List.length_map] at hdue
  have hlt := (List.getElem?_eq_some_iff.mp h).1
  rw [List.countP_eq_length_filter, filter_isChat] at hm
  omega

/-- **Whether a text was enqueued to a connection is settled in its turn.** -/
theorem Step.carries_iff_before (h : Step s t) (hr : Reachable s)
    (hn : n < (Core.posts s.trace).length) :
    Carries k t.trace (enqueuedTo k t.trace) n ↔ Carries k s.trace (enqueuedTo k s.trace) n := by
  have hprefix := h.postsTo_prefix hr k
  constructor
  · intro ht
    obtain ⟨m, p, hp, hm⟩ := carries_iff.mp ht
    -- the text was meant for the connection before the step already
    obtain ⟨q, hq⟩ : ∃ q, (Core.posts s.trace)[n]? = some q :=
      ⟨_, List.getElem?_eq_getElem hn⟩
    obtain ⟨hpost, hk⟩ := mem_postsTo.mp (List.mem_of_getElem? hp)
    obtain rfl : q = p :=
      Option.some.inj ((getElem?_of_isPrefix (h.posts_prefix hr) hq).symm.trans hpost)
    obtain ⟨m', hm'⟩ := List.mem_iff_getElem?.mp (mem_postsTo.mpr ⟨hq, hk⟩)
    obtain rfl : m' = m := postsTo_inj (getElem?_of_isPrefix hprefix hm') hp
    refine carries_iff.mpr ⟨m', q, hm', ?_⟩
    by_contra hmissing
    rw [h.enqueuedTo_of_closed (closed_of_missing hr hm' (not_lt.mp hmissing))] at hm
    exact hmissing hm
  · intro hs
    obtain ⟨es, hes⟩ := h.trace_prefix
    refine hs.mono hprefix ?_
    rw [← hes, enqueuedTo, enqueuedTo, List.flatMap_append]
    exact List.prefix_append ..

/-- Text `n` was enqueued to another connection than that of its sender. -/
def Broadcast (n : ℕ) (trace : List Effect) : Prop :=
  ∃ p ∈ (posts trace)[n]?, ∃ j ∈ p.members, j ≠ p.conn ∧ Carries j trace (enqueuedTo j trace) n

instance (n : ℕ) (trace : List Effect) : Decidable (Broadcast n trace) := by
  unfold Broadcast
  infer_instance

theorem Step.broadcast_before (h : Step s t) (hr : Reachable s)
    (hn : n < (Core.posts s.trace).length) (hbroadcast : Broadcast n t.trace) :
    Broadcast n s.trace := by
  obtain ⟨p, hp, j, hj, hne, hcarries⟩ := hbroadcast
  obtain ⟨q, hq⟩ : ∃ q, (Core.posts s.trace)[n]? = some q := ⟨_, List.getElem?_eq_getElem hn⟩
  obtain rfl : q = p :=
    Option.some.inj ((getElem?_of_isPrefix (h.posts_prefix hr) hq).symm.trans hp)
  exact ⟨q, hq, j, hj, hne, (h.carries_iff_before hr hn).mp hcarries⟩

/-! ## Every run -/

/-- **An accepted text** is that of a `SAY`, and its channel and sender have valid names. -/
structure PostOk (s : Server) (p : Post) : Prop where
  own : p.conn ∈ p.members
  said : ∃ f ∈ handledBy p.conn s.trace, f.type = ClientMsgType.say.toByte ∧
    readOneStringPayload f.payload (cwTextCap + 1) = some p.entry.text
  channel : ValidName p.entry.channel
  sender : ValidName p.entry.sender

theorem PostOk.mono (hp : PostOk s p) (h : Step s t) : PostOk t p := by
  obtain ⟨f, hf, hsaid⟩ := hp.said
  exact ⟨hp.own, ⟨f, (h.handledBy_prefix p.conn).subset hf, hsaid⟩, hp.channel, hp.sender⟩

theorem PostOk.step (hs : ∀ p ∈ posts s.trace, PostOk s p) (hr : Reachable s) (h : Step s t) :
    ∀ p ∈ posts t.trace, PostOk t p := by
  intro p hp
  have hc := channelsOk hr.moveReachable
  have hv := namesOk hr.moveReachable
  rcases h.posts hr with hsame | ⟨i, turn, frame, idx, text, hturn, hreq, haccepts, hnew⟩
  · rw [hsame] at hp
    exact (hs p hp).mono h
  · rw [hnew] at hp
    rcases List.mem_append.mp hp with hp | hp
    · exact (hs p hp).mono h
    · obtain rfl := List.mem_singleton.mp hp
      refine ⟨haccepts.own_mem hc hturn.live, ⟨frame, ?_, haccepts.say, haccepts.read⟩, ?_, ?_⟩
      · have hhandled := hturn.handledBy_eq (s.clients i).conn
        rw [if_pos hturn.conn, hreq] at hhandled
        show frame ∈ handledBy (s.clients i).conn t.trace
        rw [hhandled]
        exact List.mem_concat_self
      · exact hc.valid _ (List.mem_of_getElem? (findChannel_eq_some haccepts.channel))
      · exact hv.valid i ((hv.registered_iff i).mp haccepts.registered)

theorem postOk (hr : Reachable s) : ∀ p ∈ posts s.trace, PostOk s p := by
  refine Transition.Reachable.invariant (P := fun s => ∀ p ∈ posts s.trace, PostOk s p) ?_
    (fun _ _ hr hs hst => PostOk.step hs hr hst) hr
  rintro _ ⟨maxQueueBytes, heap, -, rfl⟩ p hp
  exact absurd hp List.not_mem_nil

/-- An answer is to a frame that was handled. -/
theorem TurnsOk.handled_of_answer (hs : TurnsOk s) {a : Answer} {frame : Frame}
    (h : a ∈ answers k s.trace) (hreq : a.request = some frame) : frame ∈ handledBy k s.trace := by
  obtain ⟨turn, hturn, ha⟩ := List.mem_flatMap.mp h
  split_ifs at ha with hk
  · obtain ⟨reply, -, rfl⟩ := List.mem_map.mp ha
    rw [hs.handled, List.mem_flatMap]
    refine ⟨turn, hturn, ?_⟩
    rw [if_pos hk]
    exact Option.mem_toList.mpr hreq
  · cases ha

/-- A connection that a text is meant for has sent a `JOIN`. -/
theorem exists_join_of_post (hr : Reachable s) (h : (p, n) ∈ postsTo k s.trace) :
    ∃ frame ∈ handledBy k s.trace, frame.type = ClientMsgType.join.toByte := by
  obtain ⟨hp, hk⟩ := mem_postsTo.mp h
  obtain ⟨frame, htype, -, hanswer⟩ := (joinsOk hr).posts p (List.mem_of_getElem? hp) k hk
  exact ⟨frame, (turnsOk hr).handled_of_answer hanswer rfl, htype⟩

/-- Of the texts meant for connection `k`, those that carry the name are its own. -/
def OwnBySender (k : ℕ) (name : Bytes) (s : Server) : Prop :=
  ∀ p ∈ posts s.trace, k ∈ p.members → (p.entry.sender = name ↔ p.conn = k)

/-- **A connection knows its own texts by the sender**, as long as it keeps its name. -/
theorem OwnBySender.step {name : Bytes} (hs : OwnBySender k name s) (hnamed : Named k name s)
    (hr : Reachable s) (h : Step s t) : OwnBySender k name t := by
  have hv := namesOk hr.moveReachable
  rcases h.posts hr with hsame | ⟨i, turn, frame, idx, text, hturn, -, haccepts, hnew⟩
  · intro p hp
    rw [hsame] at hp
    exact hs p hp
  · intro p hp hk
    rw [hnew] at hp
    rcases List.mem_append.mp hp with hp | hp
    · exact hs p hp hk
    · obtain rfl := List.mem_singleton.mp hp
      obtain ⟨j, hj, hjk⟩ := mem_memberConns.mp hk
      obtain ⟨hlj, hregj, -⟩ := mem_members.mp hj
      have hname := hnamed j hlj hjk hregj
      constructor
      · -- two live clients do not have one name
        intro hsender
        have hsame : (s.clients i).username = (s.clients j).username := by
          rw [hname]
          exact hsender
        have hne := (hv.registered_iff i).mp haccepts.registered
        rw [← hjk, hv.unique i j hturn.live hlj hne hsame]
        rfl
      · intro hconn
        exact hnamed i hturn.live hconn haccepts.registered

end Core
end ChannelWire
