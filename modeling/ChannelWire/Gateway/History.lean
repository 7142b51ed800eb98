import ChannelWire.Gateway.Texts

/-!
# The order of the history

The history of a channel is in the order of the commits, and a text is committed when the session
that said it reads it back.  The core hands the texts of a channel to every member in the order in
which it accepted them, but to each on a connection of its own, so two sessions can read back their
texts in either order.  `InOrder` says that a session reads back its text only while no later text
of the channel is stored; these are exactly the events that keep the history in the live order
(`history_in_order_iff`).
-/

namespace ChannelWire
namespace Gateway

open Labelling

/-- The text that an entry of a run tells of, if it is a channel message. -/
def textOfRow (s : State) (e : ℕ × Stored) : Option (Core.Post × ℕ) :=
  if e.2.row.kind = .channel then textSource s e.1 e.2 else none

/-- Of two entries for texts of one channel, the first is for the text that came first. -/
def LiveOrder (s : State) (a b : ℕ × Stored) : Prop :=
  ∀ p n q m, textOfRow s a = some (p, n) → textOfRow s b = some (q, m) →
    a.2.row.channelName = b.2.row.channelName → n ≤ m

/-- The next frame that session `k` reads is a text of its user, the text number `n`. -/
structure ReadsText (s : State) (k : ℕ) (x : Session) (p : Core.Post) (n : ℕ) : Prop where
  session : s.sessions k = some x
  phase : x.phase ≠ .registering
  frame : ∃ frame, s.nextFrame k x = some frame ∧ isOwnText x.username.name frame = true
  text : (Core.postsTo k s.core.trace)[x.reads.countP Core.isChat]? = some (p, n)

/-- When a session reads a text of its user, no later text of the channel is stored. -/
def InOrder (s : State) : Event → Prop
  | .read k => ∀ x p n, ReadsText s k x p n → ∀ j y r q m, s.sessions j = some y →
      r ∈ y.textRows → textSource s j r = some (q, m) → q.entry.channel = p.entry.channel → m ≤ n
  | _ => True

variable {s t : State} {e : Event} {k : ℕ} {x : Session} {db₀ : Database}
  {admits : State → Event → Prop} {w : List (ℕ × Stored)}

/-! ## One event -/

/-- An entry of a run for a channel message tells of a text, and says what it says. -/
theorem Run.textOfRow (h : Run db₀ admits s w) {a : ℕ × Stored} (ha : a ∈ w)
    (hkind : a.2.row.kind = .channel) : ∃ x, s.sessions a.1 = some x ∧ a.2 ∈ x.textRows ∧
      ∃ c, textOfRow s a = some c ∧ rowOf c.1 = some a.2.row := by
  obtain ⟨x, hx, hr⟩ := h.mem_stored ha
  have hrow : a.2 ∈ x.textRows := List.mem_filter.mpr ⟨hr, decide_eq_true hkind⟩
  obtain ⟨c, hc, hrowOf⟩ := textSource_of_row h.reachable hx hrow
  exact ⟨x, hx, hrow, c, (if_pos hkind).trans hc, hrowOf⟩

/-- Rows are in one channel if their texts are. -/
theorem channelName_eq_iff {p q : Core.Post} {row row' : Message} (hp : rowOf p = some row)
    (hq : rowOf q = some row') :
    row.channelName = row'.channelName ↔ p.entry.channel = q.entry.channel := by
  have hname : ∀ {p : Core.Post} {row : Message}, rowOf p = some row →
      ∃ channel, Utf8.decode p.entry.channel = some channel ∧ row.channelName = some channel := by
    intro p row h
    unfold rowOf at h
    split at h
    · next channel _ _ hchannel _ _ => exact ⟨channel, hchannel, by rw [← Option.some.inj h]⟩
    · cases h
  obtain ⟨c, hc, hrow⟩ := hname hp
  obtain ⟨c', hc', hrow'⟩ := hname hq
  rw [hrow, hrow', ← hc, ← hc']
  constructor
  · intro heq
    rw [hc, hc'] at heq
    rw [← Option.some.inj heq] at hc'
    exact Option.some.inj ((Utf8.encode_eq_some_iff.mpr hc).symm.trans
      (Utf8.encode_eq_some_iff.mpr hc'))
  · intro heq
    rw [heq]

theorem kind_of_textOfRow {a : ℕ × Stored} {c : Core.Post × ℕ} (h : textOfRow s a = some c) :
    a.2.row.kind = .channel ∧ textSource s a.1 a.2 = some c := by
  unfold textOfRow at h
  split_ifs at h with hkind
  exact ⟨hkind, h⟩

/-- The texts of the entries stay. -/
theorem Step.textOfRow_eq (h : Step s e t) (hrun : Run db₀ admits s w) {a : ℕ × Stored}
    (ha : a ∈ w) : Gateway.textOfRow t a = Gateway.textOfRow s a := by
  unfold Gateway.textOfRow
  split_ifs with hkind
  · obtain ⟨x, hx, hrow, c, hc, -⟩ := hrun.textOfRow ha hkind
    have hsource := (kind_of_textOfRow hc).2
    obtain ⟨frame, hframe, -⟩ := rowOk hrun.reachable hx a.2 (List.mem_filter.mp hrow).1
    rw [hsource]
    exact h.textSource_eq hrun.reachable hx (List.getElem?_eq_some_iff.mp hframe).1.le hsource
  · rfl

theorem liveOrder_before (h : Step s e t) (hrun : Run db₀ admits s w) :
    w.Pairwise (LiveOrder t) ↔ w.Pairwise (LiveOrder s) := by
  refine List.Pairwise.iff_of_mem fun ha hb => ?_
  unfold LiveOrder
  rw [h.textOfRow_eq hrun ha, h.textOfRow_eq hrun hb]

/-- A text of the user that is read is stored. -/
theorem ReadsText.storedIn {p : Core.Post} {n : ℕ} (hreads : ReadsText s k x p n)
    (h : Step s (.read k) t) : ∃ r, storedIn s t (.read k) = [(k, r)] ∧
      textOfRow t (k, r) = some (p, n) := by
  obtain ⟨frame, hnext, hown⟩ := hreads.frame
  obtain ⟨frame', y, hnext', hy, hreadsFrame, hround⟩ := h.round hreads.session hreads.phase
  obtain rfl := Option.some.inj (hnext'.symm.trans hnext)
  obtain ⟨channel, text, hevent⟩ := isOwnText_iff.mp hown
  have htext : ∃ r : Stored, y.stored = x.stored ++ [r] ∧ r.index = x.reads.length ∧
      r.row.kind = .channel := by
    generalize t.db = db at hround
    cases hround with
    | raises hraises _ _ =>
      rw [hraises.not_isOwnText] at hown
      cases hown
    | text _ _ hsaves => exact ⟨_, hsaves.stored, rfl, rfl⟩
    | received hevent' _ _ _ | acknowledged hevent' _ _ =>
      rw [hevent'] at hevent
      cases hevent
    | shows hevent' hchat _ _ _ _ _ =>
      exact absurd (Except.ok.inj (hevent'.symm.trans hevent)) (hchat channel text)
  obtain ⟨r, hstored, hindex, hkind⟩ := htext
  have hcore : t.core = s.core := by
    rcases h.core_cases with ⟨he, -⟩ | heq
    · cases he
    · exact heq
  refine ⟨r, ?_, ?_⟩
  · have hs : storedBy s k = x.stored := by
      unfold storedBy
      rw [hreads.session]
      rfl
    have ht : storedBy t k = x.stored ++ [r] := by
      unfold storedBy
      rw [hy]
      exact hstored
    rw [Gateway.storedIn, hs, ht, List.drop_left]
    rfl
  · unfold textOfRow
    rw [if_pos hkind, textSource_eq hy, hcore, hindex, hreadsFrame.reads, List.take_left]
    exact hreads.text

/-- An event that reads no text of the user stores no channel message. -/
theorem Step.storedIn_of_no_text (h : Step s e t) (hr : Reachable admits s)
    (hnot : ∀ k x p n, e = .read k → ¬ ReadsText s k x p n) :
    ∀ a ∈ storedIn s t e, Gateway.textOfRow t a = none := by
  obtain ⟨new, hgrows⟩ := h.grows
  have hstores := hgrows.stores
  generalize Gateway.storedIn s t e = rows at hstores
  cases hstores with
  | users _ | joins _ _ => exact fun a ha => by cases ha
  | @text k x frame channel text hx hphase _ hnext hevent =>
    have hframe : (Core.enqueuedTo k s.core.trace)[x.reads.length]? = some frame := by
      refine getElem?_of_isPrefix (State.nextFrame_prefix
        (Core.outputOk (Reachable.core hr).moveReachable) (sessionOk hr hx).reads hnext) ?_
      exact List.getElem?_concat_length ..
    obtain ⟨⟨p, n⟩, hsource, -⟩ := text_of_chat hr hframe hevent
    rw [take_reads (sessionOk hr hx).reads le_rfl, List.take_length] at hsource
    exact absurd ⟨hx, hphase, ⟨frame, hnext, isOwnText_iff.mpr ⟨_, _, hevent⟩⟩, hsource⟩
      (hnot k x p n rfl)
  | received _ _ _ _ _ _ | acknowledged _ _ _ _ _ _ =>
    intro a ha
    obtain rfl := List.mem_singleton.mp ha
    rfl

/-- **An event keeps the live order exactly if it is in order.** -/
theorem Step.liveOrder_iff (h : Step s e t) (hrun : Run db₀ admits s w)
    (hs : w.Pairwise (LiveOrder s)) :
    (w ++ storedIn s t e).Pairwise (LiveOrder t) ↔ InOrder s e := by
  have hold := (liveOrder_before h hrun).mpr hs
  by_cases htext : ∃ k x p n, e = .read k ∧ ReadsText s k x p n
  · obtain ⟨k, x, p, n, rfl, hreads⟩ := htext
    obtain ⟨r, hr, hsource⟩ := hreads.storedIn h
    have hrun' : Run db₀ (fun _ _ => True) t (w ++ storedIn s t (.read k)) :=
      .step (hrun.of_admits fun _ _ _ => trivial) trivial h
    -- the channel of a row is that of its text
    have hchannel : ∀ a ∈ w, ∀ q m, textOfRow t a = some (q, m) →
        (a.2.row.channelName = r.row.channelName ↔ q.entry.channel = p.entry.channel) := by
      intro a ha q m hq
      obtain ⟨-, -, -, c, hc, hrow⟩ :=
        hrun'.textOfRow (List.mem_append_left _ ha) (kind_of_textOfRow hq).1
      obtain ⟨-, -, -, c', hc', hrow'⟩ := hrun'.textOfRow (a := (k, r))
        (List.mem_append_right _ (hr ▸ List.mem_singleton_self _)) (kind_of_textOfRow hsource).1
      obtain rfl := Option.some.inj (hq.symm.trans hc)
      obtain rfl := Option.some.inj (hsource.symm.trans hc')
      exact channelName_eq_iff hrow hrow'
    rw [hr, List.pairwise_append]
    constructor
    · rintro ⟨-, -, hnew⟩ x' p' n' hreads' j y r' q m hy hr' hq hsame
      obtain rfl := Option.some.inj (hreads.session.symm.trans hreads'.session)
      obtain ⟨rfl, rfl⟩ := Prod.mk.inj (Option.some.inj (hreads.text.symm.trans hreads'.text))
      have hmem : (j, r') ∈ w := hrun.mem_of_stored hy (List.mem_filter.mp hr').1
      have hq' : textOfRow t (j, r') = some (q, m) := by
        rw [h.textOfRow_eq hrun hmem, textOfRow,
          if_pos (of_decide_eq_true (List.mem_filter.mp hr').2)]
        exact hq
      exact hnew _ hmem _ (List.mem_singleton_self _) q m p n hq' hsource
        ((hchannel _ hmem q m hq').mpr hsame)
    · refine fun hin => ⟨hold, List.pairwise_singleton _ _, fun a ha b hb => ?_⟩
      obtain rfl := List.mem_singleton.mp hb
      intro q m p' n' hq hp' hsame
      obtain ⟨rfl, rfl⟩ := Prod.mk.inj (Option.some.inj (hsource.symm.trans hp'))
      have hsame' := (hchannel a ha q m hq).mp hsame
      rw [h.textOfRow_eq hrun ha] at hq
      obtain ⟨hkind, hqs⟩ := kind_of_textOfRow hq
      obtain ⟨y, hy, hrow, -⟩ := hrun.textOfRow ha hkind
      exact hin x p n hreads a.1 y a.2 q m hy hrow hqs hsame'
  · have hnone := h.storedIn_of_no_text hrun.reachable fun k x p n he hreads =>
      htext ⟨k, x, p, n, he, hreads⟩
    have hnew : ∀ a, ∀ b ∈ storedIn s t e, LiveOrder t a b := by
      intro a b hb p n q m _ hq
      rw [hnone b hb] at hq
      cases hq
    refine iff_of_true (List.pairwise_append.mpr ⟨hold, ?_, fun a _ b hb => hnew a b hb⟩) ?_
    · exact List.pairwise_of_forall_mem_list fun a _ b hb => hnew a b hb
    · cases e with
      | read k => exact fun x p n hreads => absurd ⟨k, x, p, n, rfl, hreads⟩ htext
      | _ => trivial

/-! ## Every run -/

theorem Run.liveOrder (h : Run db₀ InOrder s w) : w.Pairwise (LiveOrder s) := by
  induction h with
  | init _ _ => exact .nil
  | step hrun hadmits hst ih => exact (hst.liveOrder_iff hrun ih).mpr hadmits

/-- A session stores in the order in which it reads. -/
theorem Run.index_le (h : Run db₀ admits s w) :
    w.Pairwise fun a b => a.1 = b.1 → a.2.index ≤ b.2.index := by
  induction h with
  | init _ _ => exact .nil
  | @step s t e w hrun _ hst ih =>
    obtain ⟨new, hgrows⟩ := hst.grows
    have hstores := hgrows.stores
    generalize Gateway.storedIn s t e = rows at hstores ⊢
    have hconcat : ∀ {k : ℕ} {x : Session} {row : Message} {own : Bool}, s.sessions k = some x →
        List.Pairwise (fun a b : ℕ × Stored => a.1 = b.1 → a.2.index ≤ b.2.index)
          (w ++ [(k, ⟨row, x.reads.length, own⟩)]) := by
      intro k x row own hx
      refine List.pairwise_append.mpr ⟨ih, List.pairwise_singleton _ _, fun a ha b hb hk => ?_⟩
      obtain rfl := List.mem_singleton.mp hb
      obtain ⟨y, hy, hr⟩ := hrun.mem_stored ha
      obtain rfl := Option.some.inj ((hk ▸ hy).symm.trans hx)
      obtain ⟨frame, hframe, -⟩ := rowOk hrun.reachable hy a.2 hr
      exact (List.getElem?_eq_some_iff.mp hframe).1.le
    cases hstores with
    | users _ | joins _ _ => rwa [List.append_nil]
    | text hx _ _ _ _ | received hx _ _ _ _ _ | acknowledged hx _ _ _ _ _ => exact hconcat hx

/-- **The texts of one session are stored in the live order**, in every run. -/
theorem Run.liveOrder_of_session (h : Run db₀ admits s w) :
    w.Pairwise fun a b => a.1 = b.1 → LiveOrder s a b := by
  refine List.Pairwise.imp_of_mem (fun {a b} ha hb hindex hk => ?_) h.index_le
  intro p n q m hp hq _
  obtain ⟨x, hx, -⟩ := h.textOfRow ha (kind_of_textOfRow hp).1
  have hsource := (kind_of_textOfRow hp).2
  have hsource' := (kind_of_textOfRow hq).2
  rw [textSource_eq hx] at hsource
  rw [← hk, textSource_eq hx] at hsource'
  have hle : (x.reads.take a.2.index).countP Core.isChat ≤
      (x.reads.take b.2.index).countP Core.isChat :=
    (List.take_sublist_take_left (hindex hk)).countP_le
  rcases hle.lt_or_eq with hlt | heq
  · obtain ⟨hi, hpi⟩ := List.getElem?_eq_some_iff.mp hsource
    obtain ⟨hj, hqj⟩ := List.getElem?_eq_some_iff.mp hsource'
    have hlabels := List.pairwise_iff_getElem.mp
      (labelled_pairwise (Core.length_postTo_le a.1) (Core.posts s.core.trace)) _ _ hi hj hlt
    exact (show (p, n).2 < (q, m).2 from hpi ▸ hqj ▸ hlabels).le
  · rw [heq] at hsource
    exact (Prod.mk.inj (Option.some.inj (hsource.symm.trans hsource'))).2.le

/-- **When the history is in the live order.**  In every run in which a session reads a text of its
user only while no later text of the channel is stored, the rows of a channel are in the order in
which the core accepted their texts.  In any run, a step keeps them in this order exactly if it
meets that condition; the texts of one session are in this order without it; the history of a
channel is what the last of these rows say, in the order in which they were stored; and every
session reads the texts meant for it in the order in which they were accepted. -/
theorem history_in_order_iff (db₀ : Database) :
    (∀ s w, Run db₀ InOrder s w → w.Pairwise (LiveOrder s)) ∧
    ∀ admits s w, Run db₀ admits s w →
      (∀ e t, Step s e t → w.Pairwise (LiveOrder s) →
        ((w ++ storedIn s t e).Pairwise (LiveOrder t) ↔ InOrder s e)) ∧
      (w.Pairwise fun a b => a.1 = b.1 → LiveOrder s a b) ∧
      (∀ a ∈ w, a.2.row.kind = .channel → ∃ p n, textOfRow s a = some (p, n) ∧
        (Core.posts s.core.trace)[n]? = some p ∧ rowOf p = some a.2.row) ∧
      (∀ channel limit, channelHistory s.db channel limit =
        (((db₀.messages ++ w.map fun a => a.2.row).filter fun m =>
          m.kind = .channel ∧ m.channelName = some channel).reverse.take limit).reverse) ∧
      ∀ k x, s.sessions k = some x →
        (x.reads.filter Core.isChat).map Frame.payload <+:
          (Core.postsTo k s.core.trace).map (fun c => c.1.entry.encode) ∧
        (Core.postsTo k s.core.trace).Pairwise fun c d => c.2 < d.2 := by
  refine ⟨fun s w h => h.liveOrder, fun admits s w h => ⟨fun e t hst hs => hst.liveOrder_iff h hs,
    h.liveOrder_of_session, fun a ha hkind => ?_, fun channel limit => ?_, fun k x hx => ⟨?_, ?_⟩⟩⟩
  · obtain ⟨x, hx, -, ⟨p, n⟩, hc, hrow⟩ := h.textOfRow ha hkind
    have hsource := (kind_of_textOfRow hc).2
    rw [textSource_eq hx] at hsource
    exact ⟨p, n, hc, (Core.mem_postsTo.mp (List.mem_of_getElem? hsource)).1, hrow⟩
  · rw [channelHistory, h.messages]
  · have hreads := ((sessionOk h.reachable hx).reads.filter Core.isChat).map Frame.payload
    have hposts := Core.chats_isPrefix (Reachable.core h.reachable) k
    rw [← Core.map_fst_postsTo, List.map_map] at hposts
    rw [Core.filter_isChat] at hreads
    exact hreads.trans hposts
  · exact labelled_pairwise (Core.length_postTo_le k) _

/-! ## Two orders -/

/-- The row of a text in `room`. -/
def roomRow (u : Username) (text : String) : Message :=
  ⟨.channel, u.name, some (py "room"), none, py text⟩

/-- `alice` and `bob` say something, and each reads it back before the other speaks. -/
def inTurn : List Op := inRoom ++ [.command 1 (.ok (.object (sayMessage "one"))),
  .deliver 0 (sayFrame "one"), .flush 0, .read 1, .command 2 (.ok (.object (sayMessage "two"))),
  .deliver 1 (sayFrame "two"), .flush 1, .flush 1, .read 2, .read 2]

/-- A condition on operations under which their events are in order: what a session reads is the
last text. -/
def LastTextOp (s : State) : Op → Prop
  | .read k => ∀ x ∈ s.sessions k,
      ∀ c ∈ (Core.postsTo k s.core.trace)[x.reads.countP Core.isChat]?,
        (Core.posts s.core.trace).length ≤ c.2 + 1 ∨
          ∀ frame ∈ s.nextFrame k x, isOwnText x.username.name frame = false
  | _ => True

instance (s : State) : (op : Op) → Decidable (LastTextOp s op)
  | .read k => inferInstanceAs (Decidable (∀ x ∈ s.sessions k, _))
  | .connect _ _ | .deliver _ _ | .flush _ | .command _ _ | .finish _ _ | .halt _ =>
    inferInstanceAs (Decidable True)

theorem admitted_of_lastTextOp (s : State) (op : Op) (h : LastTextOp s op) :
    Admitted InOrder s op := by
  cases op with
  | read k =>
    intro x p n hreads j y r q m hy hr hsource _
    have hm : m < (Core.posts s.core.trace).length := by
      rw [textSource_eq hy] at hsource
      exact lt_length_of_mem_labelled (List.mem_of_getElem? hsource)
    rcases h x hreads.session (p, n) hreads.text with hlast | hnot
    · simp only at hlast
      omega
    · obtain ⟨frame, hframe, hown⟩ := hreads.frame
      rw [hnot frame hframe] at hown
      cases hown
  | connect _ _ | deliver _ _ => exact ⟨trivial, trivial⟩
  | flush _ | command _ _ | finish _ _ | halt _ => trivial

theorem history_in_order_iff_room : ∃ w, Run twoUsers.db InOrder (twoUsers.run inTurn) w ∧
    w.Pairwise (LiveOrder (twoUsers.run inTurn)) ∧
    (∃ x, (twoUsers.run inTurn).sessions 2 = some x ∧
      (x.reads.filter Core.isChat).map Frame.payload <+:
        (Core.postsTo 2 (twoUsers.run inTurn).core.trace).map fun c => c.1.entry.encode) ∧
    channelHistory (twoUsers.run inTurn).db (py "room") 50 =
      [roomRow alice "one", roomRow bob "two"] := by
  obtain ⟨⟨w, hrun⟩, -⟩ := run_of_schedule [1, 2] inTurn initial_twoUsers
    (by decide +kernel) (.mono admitted_of_lastTextOp (by decide +kernel))
  obtain ⟨x, hx, -⟩ : ∃ x ∈ (twoUsers.run inTurn).sessions 2, True := by decide +kernel
  obtain ⟨horder, hevery⟩ := history_in_order_iff twoUsers.db
  obtain ⟨-, -, -, -, hreads⟩ := hevery _ _ w hrun
  exact ⟨w, hrun, horder _ w hrun, ⟨x, hx, (hreads 2 x hx).1⟩, by decide +kernel⟩

/-- `alice` and then `bob` say something, and `bob` reads it back before `alice` does. -/
def crossed : List Op := inRoom ++ [.command 1 (.ok (.object (sayMessage "one"))),
  .command 2 (.ok (.object (sayMessage "two"))), .deliver 0 (sayFrame "one"),
  .deliver 1 (sayFrame "two"), .flush 0, .flush 0, .flush 1, .flush 1, .read 2, .read 2, .read 1,
  .read 1]

/-- The core accepts one text before the other, and the history has them in the other order. -/
theorem history_crossed : ∃ s, Reachable KeepsNames s ∧
    (Core.posts s.core.trace).map rowOf =
      [some (roomRow alice "one"), some (roomRow bob "two")] ∧
    channelHistory s.db (py "room") 50 = [roomRow bob "two", roomRow alice "one"] :=
  ⟨twoUsers.run crossed,
    @schedule_reachable KeepsNames [1, 2] twoUsers crossed (.init initial_twoUsers)
    (fun _ _ => rfl) (by decide +kernel) (.mono admitted_keepsNames (by decide +kernel)),
    by decide +kernel, by decide +kernel⟩

end Gateway
end ChannelWire
