import ChannelWire.Gateway.Texts

/-!
# Texts that are broadcast and stored

A text is stored when the session that said it reads it back.  Nothing makes the session wait for
that: `quit` makes the core free the queue in which the text still stands and ends the task that
would read it, and so does a browser that goes away.  `ReadsBack` says that an event is none of
these, and then every text that was broadcast to somebody else has its row (`texts_stored_iff`).
-/

namespace ChannelWire
namespace Gateway

open Labelling

/-- Session `k` has read back what it said, as far as others got it. -/
def CaughtUp (s : State) (k : ℕ) : Prop :=
  ∀ x ∈ s.sessions k, ∀ n < (Core.posts s.core.trace).length, ∀ p ∈ (Core.posts s.core.trace)[n]?,
    p.conn = k → Core.Broadcast n s.core.trace → Core.Carries k s.core.trace x.reads n

instance (s : State) (k : ℕ) : Decidable (CaughtUp s k) := by
  unfold CaughtUp
  infer_instance

/-- **No text gets lost by the event**: a task that reads from the core ends only after it has read
back what the session said, and the core broadcasts no text of a session whose task has ended. -/
def ReadsBack (s : State) (e : Event) : Prop :=
  KeepsNames s e ∧
  match e with
  | .halt k | .finish k true => CaughtUp s k
  | .read k => ∀ x frame, s.sessions k = some x → x.phase ≠ .registering →
      s.nextFrame k x = some frame → x.Raises s.active s.db frame → CaughtUp s k
  | .core t => ∀ n p x, (Core.posts s.core.trace).length ≤ n →
      (Core.posts t.trace)[n]? = some p → Core.Broadcast n t.trace →
      s.sessions p.conn = some x → x.reading = true
  | _ => True

variable {s t : State} {e : Event} {k : ℕ} {x y : Session}

/-- A session stays caught up, if it says nothing more. -/
theorem CaughtUp.step (hs : CaughtUp s k) (hr : Reachable KeepsNames s) (h : Step s e t)
    (hx : s.sessions k = some x)
    (hnew : ∀ n p, (Core.posts s.core.trace).length ≤ n → (Core.posts t.core.trace)[n]? = some p →
      Core.Broadcast n t.core.trace → p.conn ≠ k) : CaughtUp t k := by
  obtain ⟨y, hy, hmoves⟩ := h.moves_of hx
  intro y' hy' n _ p hp hk hbroadcast
  obtain rfl := Option.some.inj (hy.symm.trans hy')
  by_cases hn : n < (Core.posts s.core.trace).length
  · obtain ⟨q, hq⟩ : ∃ q, (Core.posts s.core.trace)[n]? = some q :=
      ⟨_, List.getElem?_eq_getElem hn⟩
    have hbefore : Core.Broadcast n s.core.trace ∧ q = p := by
      rcases h.core_cases with ⟨-, hcore, -, -⟩ | heq
      · have hprefix := hcore.posts_prefix (Reachable.core hr)
        exact ⟨hcore.broadcast_before (Reachable.core hr) hn hbroadcast,
          Option.some.inj ((getElem?_of_isPrefix hprefix hq).symm.trans hp)⟩
      · rw [heq] at hbroadcast hp
        exact ⟨hbroadcast, Option.some.inj (hq.symm.trans hp)⟩
    obtain ⟨hbroadcast, rfl⟩ := hbefore
    exact (hs x hx n hn q hq hk hbroadcast).mono (h.postsTo_prefix hr k) hmoves.reads_prefix
  · exact absurd hk (hnew n p (not_lt.mp hn) hp hbroadcast)

/-- **A session whose task has ended has read back what it said.** -/
theorem caughtUp (h : Reachable ReadsBack s) (hx : s.sessions k = some x)
    (hreading : x.reading = false) : CaughtUp s k := by
  refine Transition.Reachable.invariant (P := fun s => ∀ k x, s.sessions k = some x →
    x.reading = false → CaughtUp s k) ?_ ?_ h k x hx hreading
  · rintro s ⟨-, hnone, -⟩ k x hx
    rw [hnone] at hx
    cases hx
  · rintro s t hr hs ⟨e, ⟨hkeeps, hadmits⟩, hst⟩ k y hy hreading
    have hrk : Reachable KeepsNames s := Transition.Reachable.of_admits (fun _ _ h => h.1) hr
    have hsame : ∀ n p, t.core = s.core → (Core.posts s.core.trace).length ≤ n →
        (Core.posts t.core.trace)[n]? = some p → False := by
      intro n p heq hn hp
      rw [heq] at hp
      exact absurd (List.getElem?_eq_some_iff.mp hp).1 (not_lt.mpr hn)
    rcases hst.moves hy with ⟨x, hx, hmoves⟩ | ⟨-, u, he, rfl, -, hmentions⟩
    · suffices hbefore : CaughtUp s k ∧ ((∃ t, e = .core t) → x.reading = false) by
        refine hbefore.1.step hrk hst hx fun n p hn hp hbroadcast hk => ?_
        rcases hst.core_cases with ⟨rfl, -, -, -⟩ | heq
        · have hreads := hadmits n p x hn hp hbroadcast (hk ▸ hx)
          rw [hbefore.2 ⟨_, rfl⟩] at hreads
          cases hreads
        · exact hsame n p heq hn hp
      cases hmoves with
      | idle _ _ _ hread =>
        rw [hread] at hreading
        exact ⟨hs k x hx hreading, fun _ => hreading⟩
      | stops he _ _ _ _ =>
        rcases he with rfl | rfl
        · exact ⟨hadmits, fun ⟨_, h⟩ => by cases h⟩
        · exact ⟨hadmits, fun ⟨_, h⟩ => by cases h⟩
      | answered he hphase _ _ _ _ =>
        have hfresh := (sessionOk hr hx).fresh hphase
        refine ⟨hs k x hx (by rw [hfresh]; rfl), fun ⟨_, h⟩ => ?_⟩
        rcases he with rfl | ⟨_, rfl⟩ <;> cases h
      | @round frame y db hphase hread hnext _ hround =>
        refine ⟨?_, fun ⟨_, h⟩ => by cases h⟩
        -- the task goes on unless the round raises
        have hgoes : y.reading = x.reading → False := fun heq => by
          rw [hreading, hread] at heq
          cases heq
        cases hround with
        | raises hraises _ _ => exact hadmits x frame hx hphase hnext hraises
        | text _ _ hsaves | received _ _ _ hsaves | acknowledged _ _ hsaves =>
          exact (hgoes hsaves.reading).elim
        | shows _ _ _ _ _ hread' _ => exact (hgoes hread').elim
    · -- nothing was received on the connection yet
      subst he
      intro y' hy' n hn p hp hk
      rcases hst.core_cases with ⟨he, -, -, -⟩ | heq
      · cases he
      · rw [heq] at hp
        obtain ⟨frame, hframe, -⟩ :=
          (Core.postOk (Reachable.core hr) p (List.mem_of_getElem? hp)).said
        rw [hk, handledBy_eq_nil_of_new hmentions] at hframe
        cases hframe

/-! ## A condition on schedules -/

/-- The texts that the core adds are of sessions whose task goes on. -/
def AddsRead (s : State) (t : Core.Server) : Prop :=
  ∀ p ∈ (Core.posts t.trace).drop (Core.posts s.core.trace).length,
    ∀ x ∈ s.sessions p.conn, x.reading = true

instance (s : State) (t : Core.Server) : Decidable (AddsRead s t) := by
  unfold AddsRead
  infer_instance

/-- A condition on operations under which their events are those of `ReadsBack`. -/
def ReadsBackOp (s : State) (op : Op) : Prop :=
  NoNickOp s op ∧
  match op with
  | .connect fd _ => AddsRead s (Core.acceptConnection s.core fd true)
  | .deliver i frame => AddsRead s (Core.recvChunk s.core i frame.encode) ∧
      AddsRead (s.setCore (Core.recvChunk s.core i frame.encode)) (Core.deliver s.core i frame)
  | .flush i => AddsRead s (Core.takeSent s.core i (unsent (s.core.clients i)))
  | .read k => ∀ x ∈ s.sessions k, ∀ frame ∈ s.nextFrame k x,
      (gatewayEvent frame).isOk = true ∧ x.username.name ∈ s.db.usernames
  | .finish k _ | .halt k => CaughtUp s k
  | .command _ _ => True

instance (s : State) : (op : Op) → Decidable (ReadsBackOp s op)
  | .connect _ _ | .flush _ => inferInstanceAs (Decidable (_ ∧ AddsRead _ _))
  | .deliver _ _ => inferInstanceAs (Decidable (_ ∧ AddsRead _ _ ∧ AddsRead _ _))
  | .read k => inferInstanceAs (Decidable (_ ∧ ∀ x ∈ s.sessions k, ∀ frame ∈ s.nextFrame k x,
      (gatewayEvent frame).isOk = true ∧ x.username.name ∈ s.db.usernames))
  | .finish _ _ | .halt _ => inferInstanceAs (Decidable (_ ∧ CaughtUp _ _))
  | .command _ _ => inferInstanceAs (Decidable (_ ∧ True))

theorem readsBack_of_addsRead {t : Core.Server} (hkeeps : KeepsNames s (.core t))
    (h : AddsRead s t) : ReadsBack s (.core t) := by
  refine ⟨hkeeps, fun n p x hn hp _ hx => h p ?_ x hx⟩
  refine List.mem_of_getElem? (i := n - (Core.posts s.core.trace).length) ?_
  rw [List.getElem?_drop, Nat.add_sub_cancel' hn]
  exact hp

theorem admitted_of_readsBackOp (s : State) (op : Op) (h : ReadsBackOp s op) :
    Admitted ReadsBack s op := by
  have hkeeps := admitted_keepsNames s op h.1
  obtain ⟨-, hop⟩ := h
  cases op with
  | connect fd u => exact ⟨readsBack_of_addsRead hkeeps.1 hop, hkeeps.2, trivial⟩
  | deliver i frame =>
    exact ⟨readsBack_of_addsRead hkeeps.1 hop.1, readsBack_of_addsRead hkeeps.2 hop.2⟩
  | flush i => exact readsBack_of_addsRead hkeeps hop
  | read k =>
    refine ⟨hkeeps, fun x frame hx _ hnext hraises => ?_⟩
    obtain ⟨hok, huser⟩ := hop x hx frame hnext
    rcases hraises with ⟨e, herror⟩ | ⟨hnot, -⟩
    · rw [herror] at hok
      cases hok
    · exact absurd huser hnot
  | command _ _ => exact ⟨hkeeps, trivial⟩
  | finish k cancelled =>
    cases cancelled with
    | true => exact ⟨hkeeps, hop⟩
    | false => exact ⟨hkeeps, trivial⟩
  | halt k => exact ⟨hkeeps, hop⟩

/-! ## Texts that are stored -/

/-- **Which texts are stored.**  In every run all of whose events meet `ReadsBack`, as soon as the
task of a session that reads from the core has ended, each text that the session said and that was
broadcast to another connection has exactly one row in the table, with the channel and the text
that were broadcast and the user of the session as sender.  In any run without a `NICK` that is
accepted under another name, a text of a session has its one row exactly if the session has read it
back, and otherwise it has none.  The text is that of the message, up to its first zero. -/
theorem texts_stored_iff (db₀ : Database) :
    (∀ s w, Run db₀ ReadsBack s w →
      s.db.messages = db₀.messages ++ w.map (fun e => e.2.row) ∧
      ∀ k x n p, s.sessions k = some x → x.reading = false →
        (Core.posts s.core.trace)[n]? = some p → p.conn = k → Core.Broadcast n s.core.trace →
        ∃ r, (w.filter fun e => IsTextOf s n e) = [(k, r)] ∧ rowOf p = some r.row ∧
          r.row.sender = x.username.name) ∧
    ∀ s w, Run db₀ KeepsNames s w → ∀ k x n p, s.sessions k = some x →
      (Core.posts s.core.trace)[n]? = some p → p.conn = k →
      ((∃ r, (w.filter fun e => IsTextOf s n e) = [(k, r)]) ↔
        Core.Carries k s.core.trace x.reads n) ∧
      (¬ Core.Carries k s.core.trace x.reads n → (w.filter fun e => IsTextOf s n e) = []) ∧
      ∃ c ∈ x.sent, ∃ text, c.frame.type = ClientMsgType.say.toByte ∧
        stringPayload [text] = .ok c.frame.payload ∧
        Utf8.decode p.entry.text = some (text.takeWhile (· ≠ 0)) := by
  constructor
  · intro s w h
    have hkeeps : Run db₀ KeepsNames s w := h.of_admits fun _ _ hadmits => hadmits.1
    refine ⟨h.messages, fun k x n p hx hreading hp hk hbroadcast => ?_⟩
    have hcarries := caughtUp h.reachable hx hreading x hx n
      (List.getElem?_eq_some_iff.mp hp).1 p hp hk hbroadcast
    have hrows := texts_of_run hkeeps hx hp hk
    rw [if_pos hcarries] at hrows
    obtain ⟨r, hr, hrow⟩ := hrows
    refine ⟨r, hr, hrow, ?_⟩
    obtain ⟨hmem, hof⟩ := List.mem_filter.mp (hr ▸ List.mem_singleton_self (k, r))
    obtain ⟨y, hy, hry⟩ := h.mem_stored hmem
    obtain rfl := Option.some.inj (hx.symm.trans hy)
    exact sender_of_textRow h.reachable hx (textOf_spec h.reachable hx hry (of_decide_eq_true hof)).1
  · intro s w h k x n p hx hp hk
    have hrows := texts_of_run h hx hp hk
    refine ⟨⟨fun ⟨r, hr⟩ => ?_, fun hcarries => ?_⟩, fun hnot => ?_, ?_⟩
    · by_contra hnot
      rw [if_neg hnot, hr] at hrows
      cases hrows
    · rw [if_pos hcarries] at hrows
      obtain ⟨r, hr, -⟩ := hrows
      exact ⟨r, hr⟩
    · rwa [if_neg hnot] at hrows
    · exact said_text h.reachable hx (List.mem_of_getElem? hp) hk

/-- `alice` says something, both read it, and she closes her browser. -/
def sayAndLeave : List Op := inRoom ++ [.command 1 (.ok (.object (sayMessage "hi"))),
  .deliver 0 (sayFrame "hi"), .flush 0, .read 1, .flush 1, .read 2, .finish 1 true]

theorem texts_stored_iff_room : ∃ w r, Run twoUsers.db ReadsBack (twoUsers.run sayAndLeave) w ∧
    (w.filter fun e => IsTextOf (twoUsers.run sayAndLeave) 0 e) = [(1, r)] ∧
    r.row = ⟨.channel, alice.name, some (py "room"), none, py "hi"⟩ := by
  obtain ⟨⟨w, hrun⟩, -⟩ := run_of_schedule [1, 2] sayAndLeave initial_twoUsers
    (by decide +kernel) (.mono admitted_of_readsBackOp (by decide +kernel))
  obtain ⟨x, hx, hreading, p, hp, hk, hrow, hbroadcast⟩ :
      ∃ x ∈ (twoUsers.run sayAndLeave).sessions 1, x.reading = false ∧
      ∃ p ∈ (Core.posts (twoUsers.run sayAndLeave).core.trace)[0]?, p.conn = 1 ∧
        rowOf p = some ⟨.channel, alice.name, some (py "room"), none, py "hi"⟩ ∧
        Core.Broadcast 0 (twoUsers.run sayAndLeave).core.trace := by decide +kernel
  obtain ⟨r, hr, hrowOf, -⟩ := ((texts_stored_iff twoUsers.db).1 _ w hrun).2 1 x 0 p hx hreading hp
    hk hbroadcast
  exact ⟨w, r, hrun, hr, Option.some.inj (hrowOf.symm.trans hrow)⟩

/-- The message with which a session ends. -/
def quitMessage : Dict := [(py "type", .string (py "quit"))]

/-- `alice` says something and quits, before the core has handled the one or the other. -/
def sayThenQuit : List Op := inRoom ++ [.command 1 (.ok (.object (sayMessage "hi"))),
  .command 1 (.ok (.object quitMessage)), .deliver 0 (sayFrame "hi"),
  .deliver 0 ⟨ClientMsgType.quit.toByte, []⟩, .flush 1, .read 2, .finish 1 true]

/-- `bob` reads the text, and it is not stored. -/
theorem text_lost_by_quit : ∃ s w x p, Run twoUsers.db KeepsNames s w ∧ s.sessions 1 = some x ∧
    x.phase = .over ∧ x.reading = false ∧ x.writing = false ∧
    (Core.posts s.core.trace)[0]? = some p ∧ p.conn = 1 ∧
    rowOf p = some ⟨.channel, alice.name, some (py "room"), none, py "hi"⟩ ∧
    (∃ y, s.sessions 2 = some y ∧ Core.Carries 2 s.core.trace y.reads 0) ∧
    (w.filter fun e => IsTextOf s 0 e) = [] ∧ s.db.messages = [] := by
  obtain ⟨⟨w, hrun⟩, -⟩ := run_of_schedule [1, 2] sayThenQuit initial_twoUsers
    (by decide +kernel) (.mono admitted_keepsNames (by decide +kernel))
  obtain ⟨x, hx, hphase, hreading, hwriting, hcarries⟩ :
      ∃ x ∈ (twoUsers.run sayThenQuit).sessions 1, x.phase = .over ∧ x.reading = false ∧
        x.writing = false ∧ ¬ Core.Carries 1 (twoUsers.run sayThenQuit).core.trace x.reads 0 := by
    decide +kernel
  obtain ⟨p, hp, hk, hrow⟩ :
      ∃ p ∈ (Core.posts (twoUsers.run sayThenQuit).core.trace)[0]?, p.conn = 1 ∧
        rowOf p = some ⟨.channel, alice.name, some (py "room"), none, py "hi"⟩ := by decide +kernel
  have hbob : ∃ y ∈ (twoUsers.run sayThenQuit).sessions 2,
      Core.Carries 2 (twoUsers.run sayThenQuit).core.trace y.reads 0 := by decide +kernel
  have hrows := texts_of_run hrun hx hp hk
  rw [if_neg hcarries] at hrows
  exact ⟨_, w, x, p, hrun, hx, hphase, hreading, hwriting, hp, hk, hrow, hbob, hrows,
    by decide +kernel⟩

end Gateway
end ChannelWire
