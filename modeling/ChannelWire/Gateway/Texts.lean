import ChannelWire.Gateway.Decoding
import ChannelWire.Gateway.Rows

/-!
# The texts of a session

`textSource` is the accepted text that a row of a channel message tells of.  It is found by
counting: the row was stored on reading a `CHAT`, and the position of a `CHAT` among those of a
connection tells its text (`Core.chat_payload`).

As long as a session keeps its name, the texts that carry this name are those it said itself, and
they can be decoded, for they were encoded by the gateway.  So a session stores the texts that it
said and reads back, each one once, and no other session stores one of them (`texts_of_run`).
-/

namespace ChannelWire
namespace Gateway

open Utf8 Labelling

/-! ## The text of a row -/

/-- The row of a text. -/
def rowOf (p : Core.Post) : Option Message :=
  match decode p.entry.channel, decode p.entry.sender, decode p.entry.text with
  | some channel, some sender, some text => some ⟨.channel, sender, some channel, none, text⟩
  | _, _, _ => none

/-- The text that a row of session `k` tells of, with its number. -/
def textSource (s : State) (k : ℕ) (r : Stored) : Option (Core.Post × ℕ) :=
  (s.sessions k).bind fun x =>
    (Core.postsTo k s.core.trace)[(x.reads.take r.index).countP Core.isChat]?

variable {s t : State} {e : Event} {k n : ℕ} {x y : Session} {p : Core.Post}
  {admits : State → Event → Prop}

theorem textSource_eq (hx : s.sessions k = some x) (r : Stored) : textSource s k r =
    (Core.postsTo k s.core.trace)[(x.reads.take r.index).countP Core.isChat]? := by
  rw [textSource, hx]
  rfl

/-- What the gateway makes of a text. -/
theorem rowOf_eq {frame : Frame} {channel sender text : PyStr}
    (hsmall : frame.payload.length ≤ cwMaxPayloadSize)
    (hevent : gatewayEvent frame = .ok (.chat channel sender text))
    (hpayload : frame.payload = p.entry.encode) :
    rowOf p = some ⟨.channel, sender, some channel, none, text⟩ := by
  have hdecode := (gatewayEvent_of hevent).2
  rw [hpayload] at hdecode hsmall
  have hfields := decodeStrings_fields_ok hsmall hdecode
  simp only [List.forall₂_cons] at hfields
  unfold rowOf
  rw [hfields.1, hfields.2.1, hfields.2.2.1]

/-- The text of a `CHAT` for session `k`. -/
theorem text_of_chat (h : Reachable admits s) {i : ℕ} {frame : Frame}
    {channel sender text : PyStr} (hframe : (Core.enqueuedTo k s.core.trace)[i]? = some frame)
    (hevent : gatewayEvent frame = .ok (.chat channel sender text)) :
    ∃ e, (Core.postsTo k s.core.trace)[((Core.enqueuedTo k s.core.trace).take i).countP
        Core.isChat]? = some e ∧ frame.payload = e.1.entry.encode ∧
      rowOf e.1 = some ⟨.channel, sender, some channel, none, text⟩ := by
  have hcore := Reachable.core h
  have hchat := Core.isChat_iff.mpr (gatewayEvent_of hevent).1
  obtain ⟨e, he, hpayload⟩ := Core.chat_payload hcore hframe hchat
  have hsmall := (Core.outputOk hcore.moveReachable).small k frame (List.mem_of_getElem? hframe)
  exact ⟨e, he, hpayload, rowOf_eq hsmall hevent hpayload⟩

/-- What was read stands in front of what was enqueued. -/
theorem take_reads {i : ℕ} {frames : List Frame} (h : x.reads <+: frames)
    (hi : i ≤ x.reads.length) : frames.take i = x.reads.take i := by
  obtain ⟨rest, rfl⟩ := h
  exact List.take_append_of_le_length hi

/-- **A row of a channel message tells of an accepted text.** -/
theorem textSource_of_row (h : Reachable admits s) (hx : s.sessions k = some x) {r : Stored}
    (hr : r ∈ x.textRows) : ∃ e, textSource s k r = some e ∧ rowOf e.1 = some r.row := by
  obtain ⟨hr, hkind⟩ := List.mem_filter.mp hr
  obtain ⟨frame, hframe, hfrom⟩ := rowOk h hx r hr
  have hreads := (sessionOk h hx).reads
  have hi := (List.getElem?_eq_some_iff.mp hframe).1
  cases hfrom with
  | text hevent hrow =>
    obtain ⟨e, he, -, hrowOf⟩ := text_of_chat h (getElem?_of_isPrefix hreads hframe) hevent
    rw [take_reads hreads hi.le] at he
    exact ⟨e, (textSource_eq hx r).trans he, hrow ▸ hrowOf⟩
  | received _ _ hrow | acknowledged _ _ hrow =>
    rw [hrow] at hkind
    cases of_decide_eq_true hkind

/-- The core only adds to the texts. -/
theorem Step.postsTo_prefix (h : Step s e t) (hr : Reachable admits s) (k : ℕ) :
    Core.postsTo k s.core.trace <+: Core.postsTo k t.core.trace := by
  rcases h.core_cases with ⟨-, hcore, -, -⟩ | heq
  · exact hcore.postsTo_prefix (Reachable.core hr) k
  · exact heq ▸ List.prefix_rfl

/-- The text of a row stays. -/
theorem Step.textSource_eq (h : Step s e t) (hr : Reachable admits s)
    (hx : s.sessions k = some x) {r : Stored} (hi : r.index ≤ x.reads.length)
    {c : Core.Post × ℕ} (hc : textSource s k r = some c) : textSource t k r = some c := by
  obtain ⟨y, hy, hmoves⟩ := h.moves_of hx
  rw [Gateway.textSource_eq hx] at hc
  rw [Gateway.textSource_eq hy, take_reads hmoves.reads_prefix hi]
  exact getElem?_of_isPrefix (h.postsTo_prefix hr k) hc

/-! ## Texts that come back -/

/-- The answer to `HELLO` is no text. -/
theorem not_isOwnText_of_fresh (h : Reachable admits s) (hx : s.sessions k = some x)
    (hphase : x.phase = .registering) {frame : Frame} (hnext : s.nextFrame k x = some frame)
    (username : PyStr) : isOwnText username frame = false := by
  by_contra hown
  obtain ⟨channel, text, hevent⟩ := isOwnText_iff.mp (eq_true_of_ne_false hown)
  have hcore := Reachable.core h
  have hok := sessionOk h hx
  have hmem : frame ∈ Core.enqueuedTo k s.core.trace :=
    (State.nextFrame_prefix (Core.outputOk hcore.moveReachable) hok.reads hnext).subset
      List.mem_concat_self
  obtain ⟨i, hi⟩ := List.mem_iff_getElem?.mp hmem
  obtain ⟨⟨p, n⟩, hp, -⟩ := text_of_chat h hi hevent
  -- it would be meant for a member, and the session has sent its `HELLO` only
  obtain ⟨join, hjoin, htype⟩ := Core.exists_join_of_post hcore (List.mem_of_getElem? hp)
  have hsent := (hok.handled (Core.inputOk hcore)).subset hjoin
  rw [hok.fresh hphase] at hsent
  obtain rfl := List.mem_singleton.mp hsent
  exact absurd (ClientMsgType.toByte_inj.mp htype : ClientMsgType.hello = .join) (by decide)

/-- **A session stores each text of its user that it reads**, and stores no other text. -/
theorem textRows_index (h : Reachable admits s) (hx : s.sessions k = some x) :
    x.textRows.map Stored.index = x.ownTexts := by
  refine Transition.Reachable.invariant (P := fun s => ∀ k x, s.sessions k = some x →
    x.textRows.map Stored.index = x.ownTexts) ?_ ?_ h k x hx
  · rintro s ⟨-, hnone, -⟩ k x hx
    rw [hnone] at hx
    cases hx
  · rintro s t hr hs ⟨e, -, hst⟩ k y hy
    rcases hst.moves hy with ⟨x, hx, hmoves⟩ | ⟨-, u, -, rfl, -⟩
    · have hold := hs k x hx
      cases hmoves with
      | idle husername hreads hstored _ | stops _ husername hreads hstored _ =>
        rw [Session.ownTexts_eq husername hreads, ← hold]
        unfold Session.textRows
        rw [hstored]
      | answered _ hphase hnext husername hreads hstored =>
        rw [Session.ownTexts_concat husername hreads, not_isOwnText_of_fresh hr hx hphase hnext,
          if_neg Bool.false_ne_true, List.append_nil, ← hold]
        unfold Session.textRows
        rw [hstored]
      | round _ _ _ hreads hround =>
        rw [Session.ownTexts_concat hreads.username hreads.reads, hround.textRows, hold]
    · rfl

/-! ## Runs in which the sessions keep their names -/

/-- The event is no `NICK` of a session that the core accepts under another name. -/
def KeepsNames (s : State) (e : Event) : Prop := ∀ k, KeepsName k s e

theorem Reachable.keepsName (h : Reachable KeepsNames s) (k : ℕ) : Reachable (KeepsName k) s :=
  Transition.Reachable.of_admits (fun _ _ hkeeps => hkeeps k) h

/-- A condition on operations under which their events are those of `KeepsNames`. -/
theorem admitted_keepsNames (s : State) (op : Op) (h : NoNickOp s op) :
    Admitted KeepsNames s op := by
  cases op with
  | connect fd u => exact ⟨fun _ => keepsName_of_noNick h _, fun _ => trivial⟩
  | deliver i frame =>
    exact ⟨fun _ => keepsName_of_noNick h.1 _,
      fun _ => keepsName_of_noNick (s := s.setCore _) h.2 _⟩
  | flush i => exact fun _ => keepsName_of_noNick h _
  | read _ | command _ _ | finish _ _ | halt _ => exact fun _ => trivial

/-- **A session knows its own texts by the sender.** -/
theorem ownBySender (h : Reachable KeepsNames s) (hx : s.sessions k = some x) :
    Core.OwnBySender k x.username.bytes s.core := by
  refine Transition.Reachable.invariant (P := fun s => ∀ k x, s.sessions k = some x →
    Core.OwnBySender k x.username.bytes s.core) ?_ ?_ h k x hx
  · rintro s ⟨-, hnone, -⟩ k x hx
    rw [hnone] at hx
    cases hx
  · rintro s t hr hs ⟨e, -, hst⟩ k y hy
    have hcore := Reachable.core hr
    rcases hst.core_cases with ⟨-, hstep, hsame, -⟩ | heq
    · rw [hsame] at hy
      exact (hs k y hy).step (identityOk (Reachable.keepsName hr k) hy).named hcore hstep
    · rw [heq]
      rcases hst.moves hy with ⟨x, hx, hmoves⟩ | ⟨-, u, -, rfl, -, hmentions⟩
      · rw [hmoves.username]
        exact hs k x hx
      · -- nothing was received on the connection yet, so no text is meant for it
        intro p hp hk
        obtain ⟨n, hn⟩ := List.mem_iff_getElem?.mp hp
        obtain ⟨frame, hframe, -⟩ :=
          Core.exists_join_of_post hcore (Core.mem_postsTo.mpr ⟨hn, hk⟩)
        rw [handledBy_eq_nil_of_new hmentions] at hframe
        cases hframe

/-- **What a session says is its message, up to the first zero.** -/
theorem said_text (h : Reachable admits s) (hx : s.sessions k = some x)
    (hp : p ∈ Core.posts s.core.trace) (hk : p.conn = k) : ∃ c ∈ x.sent, ∃ text,
      c.frame.type = ClientMsgType.say.toByte ∧ stringPayload [text] = .ok c.frame.payload ∧
      decode p.entry.text = some (text.takeWhile (· ≠ 0)) := by
  have hcore := Reachable.core h
  have hok := sessionOk h hx
  obtain ⟨frame, hframe, htype, hread⟩ := (Core.postOk hcore p hp).said
  rw [hk] at hframe
  obtain ⟨c, hc, rfl⟩ := List.mem_map.mp ((hok.handled (Core.inputOk hcore)).subset hframe)
  obtain ⟨cs, hcs, hcommands⟩ := hok.sent
  have hcommand : c.IsCommand := by
    rw [hcs] at hc
    rcases List.mem_cons.mp hc with rfl | hc
    · exact absurd (ClientMsgType.toByte_inj.mp htype : ClientMsgType.hello = .say) (by decide)
    · exact hcommands c hc
  obtain ⟨message, msgType, payload, hmessage, hcframe, -⟩ := hcommand
  rw [hcframe] at htype hread
  obtain rfl := ClientMsgType.toByte_inj.mp htype
  obtain ⟨-, ⟨text, hstrings, -⟩, hpayload⟩ := corePayloadForCommand_ok hmessage
  rw [hstrings] at hpayload
  refine ⟨c, hc, text, by rw [hcframe], by rw [hcframe]; exact hpayload, ?_⟩
  obtain ⟨encoded, hencoded, hshort, rfl⟩ := stringPayload_ok hpayload
  obtain ⟨b, rest, hb, hrest, rfl⟩ := List.forall₂_cons_left_iff.mp hencoded
  cases hrest
  have hlen := hshort b List.mem_cons_self
  have htext := @Core.readOneStringPayload_field b p.entry.text _ (by omega) (by simpa using hread)
  rw [htext]
  exact encode_eq_some_iff.mp (encode_takeWhile hb)

/-- A text of a session is decoded, and carries its name. -/
theorem event_of_own (h : Reachable KeepsNames s) (hx : s.sessions k = some x)
    (hp : p ∈ Core.posts s.core.trace) (hk : p.conn = k) {frame : Frame}
    (hchat : Core.isChat frame = true) (hpayload : frame.payload = p.entry.encode) :
    isOwnText x.username.name frame = true := by
  have hpost := Core.postOk (Reachable.core h) p hp
  obtain ⟨c, -, text, -, -, htext⟩ := said_text h hx hp hk
  have hsender : p.entry.sender = x.username.bytes :=
    (ownBySender h hx p hp (hk ▸ hpost.own)).mpr hk
  have hdecode : decodeStrings frame.payload =
      .ok [asText p.entry.channel, x.username.name, text.takeWhile (· ≠ 0)] := by
    rw [hpayload]
    refine decodeStrings_fields (.cons (decode_ascii (isAscii_of_validName hpost.channel))
      (.cons (hsender ▸ x.username.decode_bytes) (.cons htext .nil))) fun b hb => ?_
    have hchannel := hpost.channel.length_le
    have hname := hpost.sender.length_le
    obtain ⟨f, -, -, hread⟩ := hpost.said
    have hlen := Core.length_readOneStringPayload _ hread
    simp only [List.mem_cons, List.not_mem_nil, or_false] at hb
    unfold Core.cwNameCap at hchannel hname
    unfold Core.cwTextCap at hlen
    rcases hb with rfl | rfl | rfl <;> omega
  refine isOwnText_iff.mpr ⟨asText p.entry.channel, text.takeWhile (· ≠ 0), ?_⟩
  unfold gatewayEvent
  rw [Core.isChat_iff.mp hchat, ServerMsgType.ofByte_toByte]
  simp only
  rw [hdecode]

/-! ## The rows of a text -/

/-- The row, stored by the session of connection `e.1`, tells of text `n`. -/
def IsTextOf (s : State) (n : ℕ) (e : ℕ × Stored) : Prop :=
  e.2.row.kind = .channel ∧ (textSource s e.1 e.2).map Prod.snd = some n

instance (s : State) (n : ℕ) (e : ℕ × Stored) : Decidable (IsTextOf s n e) :=
  inferInstanceAs (Decidable (_ ∧ _))

/-- What a run stored, its sessions stored. -/
theorem Run.mem_stored {db₀ : Database} {w : List (ℕ × Stored)} (h : Run db₀ admits s w)
    {r : Stored} (hr : (k, r) ∈ w) : ∃ x, s.sessions k = some x ∧ r ∈ x.stored := by
  have hmem : r ∈ storedBy s k := by
    rw [h.stored k]
    exact List.mem_map.mpr ⟨(k, r), List.mem_filter.mpr ⟨hr, decide_eq_true rfl⟩, rfl⟩
  unfold storedBy at hmem
  cases hx : s.sessions k with
  | none =>
    rw [hx] at hmem
    cases hmem
  | some x =>
    rw [hx] at hmem
    exact ⟨x, rfl, hmem⟩

theorem Run.stored_eq {db₀ : Database} {w : List (ℕ × Stored)} (h : Run db₀ admits s w)
    (hx : s.sessions k = some x) : x.stored = (w.filter fun e => e.1 = k).map Prod.snd := by
  rw [← h.stored k, storedBy, hx]
  rfl

theorem Run.mem_of_stored {db₀ : Database} {w : List (ℕ × Stored)} (h : Run db₀ admits s w)
    (hx : s.sessions k = some x) {r : Stored} (hr : r ∈ x.stored) : (k, r) ∈ w := by
  rw [h.stored_eq hx] at hr
  obtain ⟨⟨j, r'⟩, hmem, rfl⟩ := List.mem_map.mp hr
  obtain ⟨hw, hj⟩ := List.mem_filter.mp hmem
  obtain rfl : j = k := of_decide_eq_true hj
  exact hw

/-- A row of text `n` says what the text says, and its session was meant to get it. -/
theorem textOf_spec (h : Reachable admits s) (hx : s.sessions k = some x) {r : Stored}
    (hr : r ∈ x.stored) (hof : IsTextOf s n (k, r)) :
    r ∈ x.textRows ∧ ∃ p, textSource s k r = some (p, n) ∧ rowOf p = some r.row ∧
      (Core.posts s.core.trace)[n]? = some p ∧ k ∈ p.members := by
  have hrow : r ∈ x.textRows := List.mem_filter.mpr ⟨hr, decide_eq_true hof.1⟩
  obtain ⟨⟨p, m⟩, hsource, hrowOf⟩ := textSource_of_row h hx hrow
  obtain rfl : m = n := by
    have hn := hof.2
    simp only at hn
    rw [hsource] at hn
    exact Option.some.inj hn
  have hmem : (p, m) ∈ Core.postsTo k s.core.trace := by
    rw [textSource_eq hx] at hsource
    exact List.mem_of_getElem? hsource
  exact ⟨hrow, p, hsource, hrowOf, Core.mem_postsTo.mp hmem⟩

/-- The sender of a row of a channel message is the user of the session. -/
theorem sender_of_textRow (h : Reachable admits s) (hx : s.sessions k = some x) {r : Stored}
    (hr : r ∈ x.textRows) : r.row.sender = x.username.name := by
  obtain ⟨hr, hkind⟩ := List.mem_filter.mp hr
  obtain ⟨frame, -, hfrom⟩ := rowOk h hx r hr
  cases hfrom with
  | text _ hrow => rw [hrow]
  | received _ _ hrow | acknowledged _ _ hrow =>
    rw [hrow] at hkind
    cases of_decide_eq_true hkind

/-- **A text is stored by the session that said it, and by no other.** -/
theorem conn_of_textOf (h : Reachable KeepsNames s) (hx : s.sessions k = some x) {r : Stored}
    (hr : r ∈ x.stored) (hof : IsTextOf s n (k, r)) {p : Core.Post}
    (hp : (Core.posts s.core.trace)[n]? = some p) : p.conn = k := by
  obtain ⟨hrow, q, -, hrowOf, hq, hk⟩ := textOf_spec h hx hr hof
  obtain rfl : q = p := Option.some.inj (hq.symm.trans hp)
  have hsender := sender_of_textRow h hx hrow
  have hname : decode q.entry.sender = some x.username.name := by
    unfold rowOf at hrowOf
    split at hrowOf
    · next hdecode _ =>
      rw [hdecode, ← hsender, ← Option.some.inj hrowOf]
    · cases hrowOf
  refine (ownBySender h hx q (List.mem_of_getElem? hq) hk).mp ?_
  exact Option.some.inj
    ((encode_eq_some_iff.mpr hname).symm.trans (encode_eq_some_iff.mpr x.username.decode_bytes))

/-- Two rows of a session that tell of one text are one row. -/
theorem textOf_inj (h : Reachable admits s) (hx : s.sessions k = some x) {r r' : Stored}
    (hr : r ∈ x.stored) (hr' : r' ∈ x.stored) (hof : IsTextOf s n (k, r))
    (hof' : IsTextOf s n (k, r')) : r = r' := by
  obtain ⟨hrow, p, hsource, -⟩ := textOf_spec h hx hr hof
  obtain ⟨hrow', p', hsource', -⟩ := textOf_spec h hx hr' hof'
  have hindex := textRows_index h hx
  have hread : ∀ {r : Stored}, r ∈ x.textRows → ∃ frame, x.reads[r.index]? = some frame ∧
      Core.isChat frame = true := by
    intro r hrow
    have hmem : r.index ∈ x.ownTexts := hindex ▸ List.mem_map_of_mem hrow
    obtain ⟨frame, hframe, hown⟩ := Session.mem_ownTexts.mp hmem
    obtain ⟨channel, text, hevent⟩ := isOwnText_iff.mp hown
    exact ⟨frame, hframe, Core.isChat_iff.mpr (gatewayEvent_of hevent).1⟩
  rw [textSource_eq hx] at hsource hsource'
  obtain ⟨frame, hframe, hchat⟩ := hread hrow
  obtain ⟨frame', hframe', hchat'⟩ := hread hrow'
  have heq : r.index = r'.index :=
    countP_take_inj hframe hframe' hchat hchat' (Core.postsTo_inj hsource hsource')
  refine List.inj_on_of_nodup_map ?_ hrow hrow' heq
  rw [hindex]
  exact x.nodup_ownTexts

/-- **A session has a row of each text that it said and read back.** -/
theorem exists_textOf_iff (h : Reachable KeepsNames s) (hx : s.sessions k = some x)
    (hp : (Core.posts s.core.trace)[n]? = some p) (hk : p.conn = k) :
    (∃ r ∈ x.stored, IsTextOf s n (k, r)) ↔ Core.Carries k s.core.trace x.reads n := by
  have hcore := Reachable.core h
  have hreads := (sessionOk h hx).reads
  have hindex := textRows_index h hx
  constructor
  · rintro ⟨r, hr, hof⟩
    obtain ⟨hrow, q, hsource, -⟩ := textOf_spec h hx hr hof
    have hmem : r.index ∈ x.ownTexts := hindex ▸ List.mem_map_of_mem hrow
    obtain ⟨frame, hframe, hown⟩ := Session.mem_ownTexts.mp hmem
    obtain ⟨channel, text, hevent⟩ := isOwnText_iff.mp hown
    have hchat := Core.isChat_iff.mpr (gatewayEvent_of hevent).1
    rw [textSource_eq hx] at hsource
    refine Core.carries_iff.mpr ⟨_, q, hsource, ?_⟩
    have hget := getElem?_filter_countP hframe hchat
    rw [List.countP_eq_length_filter (l := x.reads)]
    exact (List.getElem?_eq_some_iff.mp hget).1
  · intro hcarries
    obtain ⟨m, q, hq, hm⟩ := Core.carries_iff.mp hcarries
    obtain ⟨hpost, -⟩ := Core.mem_postsTo.mp (List.mem_of_getElem? hq)
    obtain rfl : q = p := Option.some.inj (hpost.symm.trans hp)
    obtain ⟨i, frame, hframe, hchat, hcount⟩ := exists_of_lt_countP hm
    obtain ⟨e, he, hpayload⟩ :=
      Core.chat_payload hcore (getElem?_of_isPrefix hreads hframe) hchat
    rw [take_reads hreads (List.getElem?_eq_some_iff.mp hframe).1.le, hcount, hq] at he
    obtain rfl := Option.some.inj he
    have hown := event_of_own h hx (List.mem_of_getElem? hp) hk hchat hpayload
    have hmem : i ∈ x.textRows.map Stored.index := by
      rw [hindex]
      exact Session.mem_ownTexts.mpr ⟨frame, hframe, hown⟩
    obtain ⟨r, hrow, rfl⟩ := List.mem_map.mp hmem
    obtain ⟨hr, hkind⟩ := List.mem_filter.mp hrow
    refine ⟨r, hr, of_decide_eq_true hkind, ?_⟩
    simp only
    rw [textSource_eq hx, hcount, hq]
    rfl

/-- **A text that was said by a session has one row if the session has read it back, and none
otherwise.** -/
theorem texts_of_run {db₀ : Database} {w : List (ℕ × Stored)} (h : Run db₀ KeepsNames s w)
    (hx : s.sessions k = some x) (hp : (Core.posts s.core.trace)[n]? = some p) (hk : p.conn = k) :
    if Core.Carries k s.core.trace x.reads n then
      ∃ r, (w.filter fun e => IsTextOf s n e) = [(k, r)] ∧ rowOf p = some r.row
    else (w.filter fun e => IsTextOf s n e) = [] := by
  have hr := h.reachable
  have hiff := exists_textOf_iff hr hx hp hk
  have hmine : ∀ e ∈ w, IsTextOf s n e → e.1 = k ∧ e.2 ∈ x.stored := by
    rintro ⟨j, r⟩ he hof
    obtain ⟨y, hy, hry⟩ := h.mem_stored he
    obtain rfl : k = j := hk.symm.trans (conn_of_textOf hr hy hry hof hp)
    rw [Option.some.inj (hx.symm.trans hy)]
    exact ⟨rfl, hry⟩
  split_ifs with hcarries
  · obtain ⟨r, hrx, hof⟩ := hiff.mpr hcarries
    obtain ⟨hrow, q, -, hrowOf, hq, -⟩ := textOf_spec hr hx hrx hof
    obtain rfl : q = p := Option.some.inj (hq.symm.trans hp)
    refine ⟨r, ?_, hrowOf⟩
    -- the rows of the session are those of the run that it stored
    have hsnd : (w.filter fun e => IsTextOf s n e).map Prod.snd =
        x.stored.filter fun r => IsTextOf s n (k, r) := by
      rw [h.stored_eq hx, List.filter_map, List.filter_filter]
      refine congrArg (List.map Prod.snd) (List.filter_congr fun e he => ?_)
      rw [Bool.eq_iff_iff, Bool.and_eq_true, decide_eq_true_iff, decide_eq_true_iff,
        Function.comp_apply, decide_eq_true_iff]
      constructor
      · intro hofe
        obtain ⟨rfl, -⟩ := hmine e he hofe
        exact ⟨hofe, rfl⟩
      · rintro ⟨hof, rfl⟩
        exact hof
    have hone : x.stored.filter (fun r => decide (IsTextOf s n (k, r))) = [r] := by
      refine filter_eq_singleton ?_ hrx (decide_eq_true hof) fun r' hr' hof' =>
        textOf_inj hr hx hr' hrx (of_decide_eq_true hof') hof
      have hnodup : x.textRows.Nodup := by
        refine List.Nodup.of_map Stored.index ?_
        rw [textRows_index hr hx]
        exact x.nodup_ownTexts
      refine hnodup.sublist (List.monotone_filter_right _ fun r' hof' => ?_)
      exact decide_eq_true (of_decide_eq_true hof').1
    rw [hone] at hsnd
    obtain ⟨e, he, rfl⟩ := List.map_eq_singleton_iff.mp hsnd
    have hmem := List.mem_filter.mp (he ▸ List.mem_singleton_self e)
    rw [he, ← (hmine e hmem.1 (of_decide_eq_true hmem.2)).1]
  · refine List.filter_eq_nil_iff.mpr fun e he hof => hcarries (hiff.mp ?_)
    obtain ⟨rfl, hr⟩ := hmine e he (of_decide_eq_true hof)
    exact ⟨e.2, hr, of_decide_eq_true hof⟩

end Gateway
end ChannelWire
