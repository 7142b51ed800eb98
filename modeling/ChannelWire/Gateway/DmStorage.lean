import ChannelWire.Gateway.Acknowledgements
import ChannelWire.Gateway.Fidelity
import ChannelWire.Gateway.Texts

/-!
# Direct messages that are stored

A direct message between two sessions can be stored by either: by the one that sent it, on reading
the acknowledgement, or by the one that got it, on reading the `DM_RECV` while
`active_gateway_users` does not count the sender.  Each decides for itself, so a message may be
stored twice, or not at all.

`DeliversOnce` says when an event keeps the two apart: a `DM_RECV` is read while the sender is
counted and has read the acknowledgement or still reads, or it is read while the sender is not
counted and has stopped reading without it; and a session whose direct messages were read stops
reading after their acknowledgements only.  Then every direct message that was delivered has one row
as soon as its sender has stopped (`dm_stored_once`).

## How the result is put together

What a session has `seen` are the frames it read, each with the turn that enqueued it; `HasAck`
and `HasDm` say that it has read the acknowledgement or the `DM_RECV` of a turn, and `HasRow` that
it has a row for it.

- `Step.hasDm_cases`: a session had read a direct message before, or reads it now, and then it has a
  row for it if it stores something.
- `storedOnce`: while `DeliversOnce` holds, exactly one of the two is responsible for a direct
  message that was read, the addressee with a row, or the sender, who has read the acknowledgement
  or still will (`StoredOnce`, kept by `StoredOnce.moves`).
- `exists_row_of_ack` and `row_of_ack`: the sender has one row for each acknowledgement that it has
  read, and this row is that of the direct message that was acknowledged.
- `dm_stored_once` counts the rows of the run: those of the addressee, those of the sender, and none
  of anybody else.
-/

namespace ChannelWire
namespace Gateway

open Utf8 Labelling

variable {s t : State} {e : Event} {j k n i : ℕ} {x y z : Session} {frame : Frame}
  {turn : Core.Turn} {admits : State → Event → Prop}

/-! ## Rounds -/

section Round

variable {active : PyStr → ℕ} {db db' : Database}

/-- The task goes on. -/
theorem round_reading (h : Session.Round active db x frame y db')
    (hnot : ¬ x.Raises active db frame) : y.reading = x.reading := by
  cases h with
  | raises hraises _ _ => exact absurd hraises hnot
  | text _ _ hsaves | received _ _ _ hsaves | acknowledged _ _ hsaves => exact hsaves.reading
  | shows _ _ _ _ _ hreading _ => exact hreading

/-- A direct message is stored if and only if its sender is not counted. -/
theorem round_stored {sender text : PyStr} (h : Session.Round active db x frame y db')
    (hnot : ¬ x.Raises active db frame) (hevent : gatewayEvent frame = .ok (.dm sender text)) :
    y.stored ≠ x.stored ↔ active sender = 0 := by
  cases h with
  | raises hraises _ _ => exact absurd hraises hnot
  | text hother _ _ => cases hevent.symm.trans hother
  | acknowledged hother _ _ => cases hevent.symm.trans hother
  | received hother hzero _ hsaves =>
    cases hevent.symm.trans hother
    refine iff_of_true ?_ hzero
    rw [hsaves.stored]
    exact List.append_right_eq_self.not.mpr (List.cons_ne_nil _ _)
  | shows hother _ hcounted _ _ _ hstored =>
    have hne := hcounted sender text (Except.ok.inj (hother.symm.trans hevent))
    exact iff_of_false (fun hne' => hne' hstored) hne

/-- The rows that were stored stay. -/
theorem stored_of_round (h : Session.Round active db x frame y db') : x.stored ⊆ y.stored := by
  rcases h.fromFrame with hstored | ⟨r, hstored, -, -⟩
  · exact hstored ▸ List.Subset.refl _
  · exact hstored ▸ List.subset_append_left ..

/-- A row that a round stores is that of the frame it has read. -/
theorem mem_stored_of_round (h : Session.Round active db x frame y db') {r : Stored}
    (hr : r ∈ y.stored) : r ∈ x.stored ∨ r.index = x.reads.length := by
  rcases h.fromFrame with hstored | ⟨r', hstored, hindex, -⟩
  · exact .inl (hstored ▸ hr)
  · rw [hstored] at hr
    refine (List.mem_append.mp hr).imp_right fun hr => ?_
    rw [List.mem_singleton.mp hr]
    exact hindex

end Round

/-! ## What a session has seen -/

/-- The frames that a session has read, each with the turn of the core in which it was enqueued. -/
def seen (s : State) (k : ℕ) (x : Session) : List (Frame × ℕ) :=
  (Core.outputsTo k s.core.trace).take x.reads.length

/-- The session has read the acknowledgement of the direct message of turn `n`. -/
def HasAck (s : State) (k n : ℕ) (x : Session) : Prop := (Core.okSent, n) ∈ seen s k x

/-- `pump_core_to_ws` of the session has read the `DM_RECV` of turn `n`; the first frame that a
session reads answers its `HELLO`. -/
def HasDm (s : State) (j n : ℕ) (y : Session) : Prop :=
  ∃ e ∈ (seen s j y).drop 1, Core.isDmRecv e.1 = true ∧ e.2 = n

/-- The session has stored a row on reading the `DM_RECV` of turn `n`. -/
def HasRow (s : State) (j n : ℕ) (y : Session) : Prop :=
  ∃ r ∈ y.stored, ∃ e ∈ (seen s j y)[r.index]?, Core.isDmRecv e.1 = true ∧ e.2 = n

instance (s : State) (k n : ℕ) (x : Session) : Decidable (HasAck s k n x) := by
  unfold HasAck
  infer_instance

instance (s : State) (j n : ℕ) (y : Session) : Decidable (HasDm s j n y) := by
  unfold HasDm
  infer_instance

theorem map_fst_seen (h : Reachable admits s) (hx : s.sessions k = some x) :
    (seen s k x).map Prod.fst = x.reads := by
  obtain ⟨rest, hrest⟩ := (sessionOk h hx).reads
  rw [seen, List.map_take, Core.map_fst_outputsTo (Reachable.core h), ← hrest, List.take_left]

theorem length_seen (h : Reachable admits s) (hx : s.sessions k = some x) :
    (seen s k x).length = x.reads.length := by
  rw [← map_fst_seen h hx, List.length_map]

/-- The core only adds to the frames. -/
theorem Step.outputsTo_prefix (h : Step s e t) (k : ℕ) :
    Core.outputsTo k s.core.trace <+: Core.outputsTo k t.core.trace := by
  rcases h.core_cases with ⟨-, hstep, -, -⟩ | heq
  · exact labelled_isPrefix _ hstep.turns_prefix
  · exact heq ▸ List.prefix_rfl

theorem Step.turns_prefix (h : Step s e t) :
    Core.turns s.core.trace <+: Core.turns t.core.trace := by
  rcases h.core_cases with ⟨-, hstep, -, -⟩ | heq
  · exact hstep.turns_prefix
  · exact heq ▸ List.prefix_rfl

/-- What was seen stays, if nothing is read. -/
theorem seen_of_same (hr : Reachable admits s) (h : Step s e t) (hx : s.sessions k = some x)
    (hreads : y.reads = x.reads) : seen t k y = seen s k x := by
  obtain ⟨rest, hrest⟩ := h.outputsTo_prefix k
  have hlen := length_seen hr hx
  have hle : x.reads.length ≤ (Core.outputsTo k s.core.trace).length := by
    rw [seen, List.length_take] at hlen
    exact min_eq_left_iff.mp hlen
  rw [seen, seen, hreads, ← hrest, List.take_append_of_le_length hle]

/-- A frame that is read is seen. -/
theorem seen_of_read (hr : Reachable admits s) (h : Step s e t)
    (hx : s.sessions k = some x) (hnext : s.nextFrame k x = some frame)
    (hreads : y.reads = x.reads ++ [frame]) :
    ∃ n, (Core.outputsTo k s.core.trace)[x.reads.length]? = some (frame, n) ∧
      seen t k y = seen s k x ++ [(frame, n)] := by
  have hcore := Reachable.core hr
  have hprefix := State.nextFrame_prefix (Core.outputOk hcore.moveReachable)
    (sessionOk hr hx).reads hnext
  have hget := getElem?_of_isPrefix hprefix (List.getElem?_concat_length ..)
  rw [← Core.map_fst_outputsTo hcore, List.getElem?_map] at hget
  obtain ⟨⟨f, n⟩, hout, rfl⟩ := Option.map_eq_some_iff.mp hget
  refine ⟨n, hout, ?_⟩
  obtain ⟨rest, hrest⟩ := h.outputsTo_prefix k
  have hle : x.reads.length + 1 ≤ (Core.outputsTo k s.core.trace).length :=
    (List.getElem?_eq_some_iff.mp hout).1
  rw [seen, seen, hreads, ← hrest, List.length_append, List.length_singleton,
    List.take_append_of_le_length hle, List.take_add_one, hout]
  rfl

/-- **A direct message is read once by a session.** -/
theorem seen_inj (h : Reachable admits s) {a b : ℕ} {f g : Frame}
    (ha : (Core.outputsTo k s.core.trace)[a]? = some (f, n))
    (hb : (Core.outputsTo k s.core.trace)[b]? = some (g, n))
    (hf : Core.isDmRecv f = true) (hg : Core.isDmRecv g = true) : a = b :=
  Core.outputsTo_inj (Reachable.core h) ha hb (fun hapart => hapart.1 ⟨hf, hg⟩)
    (fun hapart => hapart.1 ⟨hg, hf⟩)

theorem getElem?_seen {e : Frame × ℕ} (h : (seen s k x)[i]? = some e) :
    (Core.outputsTo k s.core.trace)[i]? = some e ∧ i < x.reads.length := by
  rw [seen, List.getElem?_take] at h
  split_ifs at h with hlt
  exact ⟨h, hlt⟩

theorem seen_grows (hr : Reachable admits s) (h : Step s e t) (hx : s.sessions k = some x)
    (hmoves : Moves s k x e y) : seen s k x <+: seen t k y := by
  cases hmoves with
  | idle _ hreads _ _ | stops _ _ hreads _ _ =>
    exact seen_of_same hr h hx hreads ▸ List.prefix_rfl
  | answered _ _ hnext _ hreads _ =>
    obtain ⟨n, -, hseen⟩ := seen_of_read hr h hx hnext hreads
    exact hseen ▸ List.prefix_append ..
  | round _ _ hnext hreads _ =>
    obtain ⟨n, -, hseen⟩ := seen_of_read hr h hx hnext hreads.reads
    exact hseen ▸ List.prefix_append ..

theorem HasAck.moves (hack : HasAck s k n x) (hr : Reachable admits s) (h : Step s e t)
    (hx : s.sessions k = some x) (hmoves : Moves s k x e y) : HasAck t k n y :=
  (seen_grows hr h hx hmoves).subset hack

/-- What was read stands somewhere behind the answer to `HELLO`. -/
theorem HasDm.position (h : HasDm s j n y) : ∃ (i : ℕ) (f : Frame), (seen s j y)[i]? = some (f, n) ∧
    Core.isDmRecv f = true := by
  obtain ⟨⟨f, m⟩, hmem, hrecv, rfl⟩ := h
  obtain ⟨i, hi⟩ := List.mem_iff_getElem?.mp (List.mem_of_mem_drop hmem)
  exact ⟨i, f, hi, hrecv⟩

/-- The `DM_RECV` was enqueued in its turn. -/
theorem HasDm.output (h : HasDm s j n y) : ∃ turn, (Core.turns s.core.trace)[n]? = some turn ∧
    ∃ f, (j, f) ∈ turn.output ∧ Core.isDmRecv f = true := by
  obtain ⟨i, f, hi, hrecv⟩ := h.position
  obtain ⟨turn, hturn, hout⟩ := Core.mem_outputsTo.mp (List.mem_of_getElem? (getElem?_seen hi).1)
  exact ⟨turn, hturn, f, hout, hrecv⟩

theorem index_lt (h : Reachable admits s) (hx : s.sessions k = some x) {r : Stored}
    (hr : r ∈ x.stored) : r.index < x.reads.length := by
  obtain ⟨f, hf, -⟩ := rowOk h hx r hr
  exact (List.getElem?_eq_some_iff.mp hf).1

/-- **How a session comes to have read a direct message**: it had read it, or reads it now, and then
it has a row for it if it stores something. -/
theorem Step.hasDm_cases (h : Step s e t) (hr : Reachable admits s) (hy : s.sessions j = some y)
    (hmoves : Moves s j y e z) (hread : HasDm t j n z) :
    (HasDm s j n y ∧ (HasRow t j n z ↔ HasRow s j n y)) ∨
      e = .read j ∧ y.phase ≠ .registering ∧ y.reading = true ∧ ∃ frame db,
        s.nextFrame j y = some frame ∧ Core.isDmRecv frame = true ∧
        (Core.outputsTo j s.core.trace)[y.reads.length]? = some (frame, n) ∧
        Session.Round s.active s.db y frame z db ∧ (HasRow t j n z ↔ z.stored ≠ y.stored) := by
  cases hmoves with
  | idle _ hreads hstored _ | stops _ _ hreads hstored _ =>
    have hseen := seen_of_same hr h hy hreads
    refine .inl ⟨?_, ?_⟩
    · rwa [HasDm, ← hseen]
    · rw [HasRow, HasRow, hseen, hstored]
  | answered _ hphase hnext _ hreads _ =>
    -- the first frame that is read is the answer to `HELLO`
    have hfresh := (sessionOk hr hy).fresh hphase
    obtain ⟨m, -, hseen⟩ := seen_of_read hr h hy hnext hreads
    have hnone : seen s j y = [] := by
      rw [seen, hfresh]
      exact List.take_zero
    obtain ⟨e', hmem, -⟩ := hread
    rw [hseen, hnone] at hmem
    cases hmem
  | @round frame _ db hphase hreading hnext hreads hround =>
    obtain ⟨m, hout, hseen⟩ := seen_of_read hr h hy hnext hreads.reads
    have hlen := length_seen hr hy
    have hlast : (seen t j z)[y.reads.length]? = some (frame, m) := by
      rw [hseen, ← hlen]
      exact List.getElem?_concat_length ..
    have hbefore : ∀ {r : Stored}, r ∈ y.stored →
        (seen t j z)[r.index]? = (seen s j y)[r.index]? := by
      intro r hr'
      rw [hseen, List.getElem?_append_left (hlen ▸ index_lt hr hy hr')]
    by_cases hold : HasDm s j n y
    · obtain ⟨i, f, hi, hrecv⟩ := hold.position
      obtain ⟨hi, hlt⟩ := getElem?_seen hi
      refine .inl ⟨hold, ?_, ?_⟩
      · rintro ⟨r, hr', ⟨f', m'⟩, he', hrecv', rfl⟩
        rcases mem_stored_of_round hround hr' with hr' | hindex
        · exact ⟨r, hr', _, hbefore hr' ▸ he', hrecv', rfl⟩
        · rw [hindex, hlast] at he'
          obtain ⟨rfl, rfl⟩ := Prod.mk.inj (Option.some.inj he')
          exact absurd (seen_inj hr hi hout hrecv hrecv') hlt.ne
      · rintro ⟨r, hr', e', he', hrecv', hn⟩
        exact ⟨r, stored_of_round hround hr', e', hbefore hr' ▸ he', hrecv', hn⟩
    · -- it is the frame that is read now
      obtain ⟨⟨f, m'⟩, hmem, hrecv, hm⟩ := hread
      rw [hseen] at hmem
      have hnew : (f, m') = (frame, m) := by
        by_contra hne
        refine hold ⟨(f, m'), ?_, hrecv, hm⟩
        rw [List.drop_append] at hmem
        refine (List.mem_append.mp hmem).resolve_right fun hmem => hne ?_
        exact List.mem_singleton.mp (List.mem_of_mem_drop hmem)
      obtain ⟨rfl, rfl⟩ := Prod.mk.inj hnew
      have hmn : m' = n := hm
      subst hmn
      refine .inr ⟨rfl, hphase, hreading, f, db, hnext, hrecv, hout, hround, ?_, ?_⟩
      · rintro ⟨r, hr', ⟨f', m''⟩, he', hrecv', hm''⟩ hsame
        rw [hsame] at hr'
        rw [Option.mem_def, hbefore hr'] at he'
        have hm'' : m'' = m' := hm''
        subst hm''
        obtain ⟨hi, hlt⟩ := getElem?_seen he'
        exact absurd (seen_inj hr hi hout hrecv' hrecv) hlt.ne
      · intro hne
        rcases hround.fromFrame with hsame | ⟨r, hstored, hindex, -⟩
        · exact absurd hsame hne
        · refine ⟨r, hstored ▸ List.mem_concat_self, (f, m'), ?_, hrecv, rfl⟩
          rw [hindex]
          exact hlast

/-! ## Events that keep the two apart -/

/-- The session has read the acknowledgements of all its direct messages that were read. -/
def AllAcked (s : State) (k : ℕ) : Prop :=
  ∀ x ∈ s.sessions k, ∀ n < (Core.turns s.core.trace).length,
    ∀ turn ∈ (Core.turns s.core.trace)[n]?, turn.conn = k → ∀ o ∈ turn.output,
      ∀ y ∈ s.sessions o.1, HasDm s o.1 n y → HasAck s k n x

instance (s : State) (k : ℕ) : Decidable (AllAcked s k) := by
  unfold AllAcked
  infer_instance

/-- **Session `k` and the addressee of a direct message of it do not both store it, or neither.**
A `DM_RECV` is read while the sender is counted if and only if session `k` has read the
acknowledgement or still reads; and session `k` stops reading behind the acknowledgements of what
was read. -/
def DeliversOnce (k : ℕ) (s : State) (e : Event) : Prop :=
  KeepsNames s e ∧
  match e with
  | .halt i | .finish i true => i = k → AllAcked s k
  | .read i => ∀ z frame, s.sessions i = some z → z.phase ≠ .registering →
      s.nextFrame i z = some frame →
      (i = k → z.Raises s.active s.db frame → frame ≠ Core.okSent ∧ AllAcked s k) ∧
      ∀ n turn, (Core.outputsTo i s.core.trace)[z.reads.length]? = some (frame, n) →
        (Core.turns s.core.trace)[n]? = some turn → turn.conn = k → Core.isDmRecv frame = true →
        ¬ z.Raises s.active s.db frame ∧
        ∀ sender text, gatewayEvent frame = .ok (.dm sender text) → ∀ x, s.sessions k = some x →
          (s.active sender ≠ 0 ↔ x.reading = true ∨ HasAck s k n x)
  | _ => True

theorem AllAcked.hasAck (h : AllAcked s k) (hx : s.sessions k = some x)
    (hy : s.sessions j = some y) (hread : HasDm s j n y)
    (hturn : (Core.turns s.core.trace)[n]? = some turn) (hk : turn.conn = k) : HasAck s k n x := by
  obtain ⟨turn', hturn', f, hf, -⟩ := hread.output
  obtain rfl := Option.some.inj (hturn.symm.trans hturn')
  exact h x hx n (List.getElem?_eq_some_iff.mp hturn).1 turn hturn hk (j, f) hf y hy hread

/-- Either the addressee has stored the direct message, and the sender will not read the
acknowledgement; or the addressee has not, and the sender has read it or still reads. -/
def StoredOnce (s : State) (k j n : ℕ) (x y : Session) : Prop :=
  (HasRow s j n y ∧ x.reading = false ∧ ¬ HasAck s k n x) ∨
    (¬ HasRow s j n y ∧ (x.reading = true ∨ HasAck s k n x))

/-- The sender moves, and the addressee has read the `DM_RECV` before. -/
theorem StoredOnce.moves {x' y' : Session} (h : StoredOnce s k j n x y)
    (hr : Reachable (DeliversOnce k) s) (hst : Step s e t) (hadmits : DeliversOnce k s e)
    (hx : s.sessions k = some x) (hy : s.sessions j = some y) (hmoves : Moves s k x e x')
    (hread : HasDm s j n y) (hrow : HasRow t j n y' ↔ HasRow s j n y)
    (hturn : (Core.turns s.core.trace)[n]? = some turn) (hk : turn.conn = k) :
    StoredOnce t k j n x' y' := by
  rw [StoredOnce, hrow]
  have hacked : AllAcked s k → ¬ HasRow s j n y ∧ HasAck t k n x' := by
    intro hall
    have hack := hall.hasAck hx hy hread hturn hk
    exact ⟨h.elim (fun hold => absurd hack hold.2.2) And.left, hack.moves hr hst hx hmoves⟩
  cases hmoves with
  | idle _ hreads _ hreading =>
    have hseen := seen_of_same hr hst hx hreads
    rwa [hreading, HasAck, hseen]
  | stops he _ _ _ _ =>
    have hall : AllAcked s k := by
      rcases he with rfl | rfl
      · exact hadmits.2 rfl
      · exact hadmits.2 rfl
    exact .inr ⟨(hacked hall).1, .inr (hacked hall).2⟩
  | answered _ hphase _ _ _ _ =>
    -- the session has sent nothing but its `HELLO`
    obtain ⟨turn', hturn', f, hf, hrecv⟩ := hread.output
    obtain rfl := Option.some.inj (hturn.symm.trans hturn')
    obtain ⟨g, -, htype, hhandled⟩ := request_of_dmRecv hr hturn hf hrecv
    exact absurd htype ((sessionOk hr hx).not_dm_of_fresh (Reachable.core hr) hphase
      (hk ▸ hhandled))
  | @round frame _ db hphase hreading hnext _ hround =>
    have hnot : ¬ HasRow s j n y := h.elim (fun hold => by
      rw [hreading] at hold
      exact Bool.noConfusion hold.2.1) And.left
    by_cases hraises : x.Raises s.active s.db frame
    · have hall := ((hadmits.2 x frame hx hphase hnext).1 rfl hraises).2
      exact .inr ⟨hnot, .inr (hacked hall).2⟩
    · exact .inr ⟨hnot, .inl ((round_reading hround hraises).trans hreading)⟩

/-- **Each direct message that was read is stored by one of the two, or will be.** -/
theorem storedOnce (h : Reachable (DeliversOnce k) s) (hx : s.sessions k = some x)
    (hy : s.sessions j = some y) (hread : HasDm s j n y)
    (hturn : (Core.turns s.core.trace)[n]? = some turn) (hk : turn.conn = k) :
    StoredOnce s k j n x y := by
  refine Transition.Reachable.invariant (P := fun s => ∀ x, s.sessions k = some x → ∀ j y n turn,
    s.sessions j = some y → HasDm s j n y → (Core.turns s.core.trace)[n]? = some turn →
    turn.conn = k → StoredOnce s k j n x y) ?_ ?_ h x hx j y n turn hy hread hturn hk
  · rintro s ⟨-, hnone, -⟩ x hx
    rw [hnone] at hx
    cases hx
  · rintro s t hr hs ⟨e, hadmits, hst⟩ x' hx' j y' n turn hy' hread hturn hk
    obtain ⟨turn', hturn', f, hf, hrecv⟩ := hread.output
    obtain rfl := Option.some.inj (hturn.symm.trans hturn')
    rcases hst.moves hy' with ⟨y, hy, hmovesy⟩ | ⟨-, u, -, rfl, -⟩
    swap
    · -- nothing was read yet
      obtain ⟨e', he', -⟩ := hread
      rw [seen, show (openRegisteredCore u).reads = [] from rfl, List.length_nil,
        List.take_zero] at he'
      cases he'
    rcases hst.moves hx' with ⟨x, hx, hmovesx⟩ | ⟨-, u, rfl, rfl, -, hmentions⟩
    swap
    · -- nothing was received on the connection yet
      have hsame : t.core = s.core := by
        rcases hst.core_cases with ⟨he, -⟩ | heq
        · cases he
        · exact heq
      rw [hsame] at hturn
      obtain ⟨g, -, -, hhandled⟩ := request_of_dmRecv hr hturn hf hrecv
      rw [hk, handledBy_eq_nil_of_new hmentions] at hhandled
      cases hhandled
    have hbefore : ∀ {turn₀}, (Core.turns s.core.trace)[n]? = some turn₀ →
        (Core.turns s.core.trace)[n]? = some turn := by
      intro turn₀ hturn₀
      have heq := getElem?_of_isPrefix hst.turns_prefix hturn₀
      rw [Option.some.inj (hturn.symm.trans heq)]
      exact hturn₀
    rcases hst.hasDm_cases hr hy hmovesy hread with ⟨hold, hrow⟩ |
      ⟨rfl, hphase, hreading, frame, db, hnext, hdm, hout, hround, hrow⟩
    · obtain ⟨turn₀, hturn₀, -⟩ := hold.output
      have hturn := hbefore hturn₀
      exact (hs x hx j y n turn hy hold hturn hk).moves hr hst hadmits hx hy hmovesx hold hrow
        hturn hk
    · obtain ⟨turn₀, hturn₀, -⟩ := Core.mem_outputsTo.mp (List.mem_of_getElem? hout)
      obtain ⟨hnot, honce⟩ :=
        (hadmits.2 y frame hy hphase hnext).2 n turn hout (hbefore hturn₀) hk hdm
      obtain ⟨event, hevent⟩ : ∃ event, gatewayEvent frame = .ok event := by
        cases hevent : gatewayEvent frame with
        | error err => exact absurd (.inl ⟨err, hevent⟩) hnot
        | ok event => exact ⟨event, rfl⟩
      obtain ⟨sender, text, rfl⟩ := gatewayEvent_of_isDmRecv hdm hevent
      have hcounted := honce sender text hevent x hx
      rw [StoredOnce, hrow, round_stored hround hnot hevent]
      cases hmovesx with
      | idle _ hreads _ hsame =>
        have hseen := seen_of_same hr hst hx hreads
        rw [hsame, HasAck, hseen, ← HasAck]
        by_cases hzero : s.active sender = 0
        · have hneither := fun hor => hcounted.mpr hor hzero
          exact .inl ⟨hzero, Bool.eq_false_iff.mpr fun h => hneither (.inl h),
            fun h => hneither (.inr h)⟩
        · exact .inr ⟨hzero, hcounted.mp hzero⟩
      | stops he _ _ _ _ => rcases he with he | he <;> cases he
      | answered he hregistering _ _ _ _ =>
        rcases he with he | ⟨_, he⟩
        swap
        · cases he
        obtain rfl := Event.read.inj he
        rw [Option.some.inj (hx.symm.trans hy)] at hregistering
        exact absurd hregistering hphase
      | round _ hreadingx _ _ hroundx =>
        -- the sender is the addressee
        refine .inr ⟨hcounted.mpr (.inl hreadingx), .inl ?_⟩
        rw [Option.some.inj (hx'.symm.trans hy'), round_reading hround hnot]
        exact hreading

/-! ## The rows of a session -/

/-- **A session has a row for each acknowledgement that it has read.** -/
theorem exists_row_of_ack (h : Reachable (DeliversOnce k) s) (hx : s.sessions k = some x)
    (hanswered : Core.Answered k s.core.trace) (hread : x.reads[i]? = some Core.okSent) :
    ∃ r ∈ x.stored, r.index = i := by
  refine Transition.Reachable.invariant (P := fun s => ∀ x, s.sessions k = some x →
    Core.Answered k s.core.trace → ∀ i, x.reads[i]? = some Core.okSent →
    ∃ r ∈ x.stored, r.index = i) ?_ ?_ h x hx hanswered i hread
  · rintro s ⟨-, hnone, -⟩ x hx
    rw [hnone] at hx
    cases hx
  · rintro s t hr hs ⟨e, hadmits, hst⟩ y hy hanswered i hread
    have hcore := Reachable.core hr
    have hbefore : Core.Answered k s.core.trace := hanswered.of_prefix hst.turns_prefix
    rcases hst.moves hy with ⟨x, hx, hmoves⟩ | ⟨-, u, -, rfl, -⟩
    swap
    · cases hread
    have hok := sessionOk hr hx
    have hold := hs x hx hbefore
    have hnew : ∀ {frame : Frame}, s.nextFrame k x = some frame →
        x.reads ++ [frame] <+: Core.enqueuedTo k s.core.trace := fun hnext =>
      State.nextFrame_prefix (Core.outputOk hcore.moveReachable) hok.reads hnext
    cases hmoves with
    | idle _ hreads hstored _ | stops _ _ hreads hstored _ =>
      rw [hreads] at hread
      rw [hstored]
      exact hold i hread
    | @answered _ frame _ _ hphase hnext _ hreads _ =>
      -- the answer to `HELLO` acknowledges nothing
      have hfresh := hok.fresh hphase
      have hframe : frame = Core.okSent := by
        rw [hreads, hfresh] at hread
        exact (List.mem_singleton.mp (List.mem_of_getElem? hread)).symm
      have hlt := hok.acks_lt hcore hbefore (hframe ▸ hnew hnext)
      rw [hfresh] at hlt
      cases hlt
    | @round frame _ db hphase hreading hnext hreads hround =>
      by_cases hlt : i < x.reads.length
      · rw [hreads.reads, List.getElem?_append_left hlt] at hread
        obtain ⟨r, hr', hindex⟩ := hold i hread
        exact ⟨r, stored_of_round hround hr', hindex⟩
      · obtain ⟨rfl, rfl⟩ : i = x.reads.length ∧ frame = Core.okSent := by
          rw [hreads.reads, List.getElem?_append_right (not_lt.mp hlt)] at hread
          have hi := (List.getElem?_eq_some_iff.mp hread).1
          rw [List.length_singleton, Nat.lt_one_iff, Nat.sub_eq_zero_iff_le] at hi
          exact ⟨Nat.le_antisymm hi (not_lt.mp hlt),
            (List.mem_singleton.mp (List.mem_of_getElem? hread)).symm⟩
        have hevent := gatewayEvent_eq_sent.mpr (rfl : Core.okSent = Core.okSent)
        cases hround with
        | raises hraises _ _ => exact absurd rfl ((hadmits.2 x _ hx hphase hnext).1 rfl hraises).1
        | text hother _ _ => cases hevent.symm.trans hother
        | received hother _ _ _ => cases hevent.symm.trans hother
        | acknowledged _ _ hsaves =>
          exact ⟨_, hsaves.stored ▸ List.mem_concat_self, rfl⟩
        | shows hother _ _ hnone _ _ _ =>
          have hempty := hnone (Except.ok.inj (hother.symm.trans hevent))
          exact absurd hempty ((ackOk hr hx hbefore).pendingDms_ne_nil hok hcore hbefore hreading
            (hnew hnext))

/-- The rows of a session are in the order of the frames they were stored for. -/
theorem stored_sorted (h : Reachable admits s) (hx : s.sessions k = some x) :
    x.stored.Pairwise fun r r' => r.index < r'.index := by
  refine Transition.Reachable.invariant (P := fun s => ∀ x, s.sessions k = some x →
    x.stored.Pairwise fun r r' => r.index < r'.index) ?_ ?_ h x hx
  · rintro s ⟨-, hnone, -⟩ x hx
    rw [hnone] at hx
    cases hx
  · rintro s t hr hs ⟨e, -, hst⟩ y hy
    rcases hst.moves hy with ⟨x, hx, hmoves⟩ | ⟨-, u, -, rfl, -⟩
    swap
    · exact .nil
    have hold := hs x hx
    cases hmoves with
    | idle _ _ hstored _ | stops _ _ _ hstored _ => rwa [hstored]
    | answered _ _ _ _ _ hstored => rwa [hstored]
    | round _ _ _ _ hround =>
      rcases hround.fromFrame with hstored | ⟨r, hstored, hindex, -⟩
      · rwa [hstored]
      · rw [hstored]
        refine List.pairwise_append.mpr ⟨hold, List.pairwise_singleton _ _, ?_⟩
        intro r' hr' r'' hr''
        rw [List.mem_singleton.mp hr'', hindex]
        exact index_lt hr hx hr'

theorem nodup_index (h : Reachable admits s) (hx : s.sessions k = some x) :
    (x.stored.map Stored.index).Nodup :=
  List.pairwise_map.mpr ((stored_sorted h hx).imp Nat.ne_of_lt)

/-- A row is known by the frame it was stored for. -/
theorem stored_inj (h : Reachable admits s) (hx : s.sessions k = some x) {r r' : Stored}
    (hr : r ∈ x.stored) (hr' : r' ∈ x.stored) (hindex : r.index = r'.index) : r = r' :=
  List.inj_on_of_nodup_map (nodup_index h hx) hr hr' hindex

/-- A run stores no row twice. -/
theorem Run.nodup {db₀ : Database} {w : List (ℕ × Stored)} (h : Run db₀ admits s w) : w.Nodup := by
  refine List.nodup_iff_sublist.mpr fun e htwice => ?_
  obtain ⟨x, hx, -⟩ := h.mem_stored (k := e.1) (r := e.2) (htwice.subset List.mem_cons_self)
  have hsub := (htwice.filter fun e' => e'.1 = e.1).map Prod.snd
  rw [← h.stored_eq hx, List.filter_eq_self.mpr] at hsub
  · exact List.nodup_iff_sublist.mp ((nodup_index h.reachable hx).of_map _) e.2 hsub
  · intro e' he'
    simp only [List.mem_cons, List.not_mem_nil, or_false, or_self] at he'
    exact decide_eq_true (he' ▸ rfl)

/-- The row was stored on reading the acknowledgement or the `DM_RECV` of turn `n`. -/
def IsRowOfDm (s : State) (n : ℕ) (e : ℕ × Stored) : Prop :=
  ∃ f ∈ (Core.outputsTo e.1 s.core.trace)[e.2.index]?,
    (Core.isAck f.1 = true ∨ Core.isDmRecv f.1 = true) ∧ f.2 = n

instance (s : State) (n : ℕ) (e : ℕ × Stored) : Decidable (IsRowOfDm s n e) := by
  unfold IsRowOfDm
  infer_instance

/-- **Where the row of a direct message was stored**: by the session that sent it, or by the one
that got it. -/
theorem rowOfDm_cases (h : Reachable admits s) (hz : s.sessions i = some z) {r : Stored}
    (hr : r ∈ z.stored) (hof : IsRowOfDm s n (i, r)) (hread : HasDm s j n y)
    (hturn : (Core.turns s.core.trace)[n]? = some turn) :
    (i = turn.conn ∧ z.reads[r.index]? = some Core.okSent ∧
        (Core.outputsTo i s.core.trace)[r.index]? = some (Core.okSent, n)) ∨
      (i = j ∧ ∃ f, (Core.outputsTo i s.core.trace)[r.index]? = some (f, n) ∧
        (seen s i z)[r.index]? = some (f, n) ∧ Core.isDmRecv f = true) := by
  have hcore := Reachable.core h
  obtain ⟨⟨f, m⟩, hf, hkind, hm⟩ := hof
  have hm : m = n := hm
  subst hm
  have hseen : (seen s i z)[r.index]? = some (f, m) := by
    rw [seen, List.getElem?_take, if_pos (index_lt h hz hr)]
    exact hf
  obtain ⟨turn', hturn', hout⟩ := Core.mem_outputsTo.mp (List.mem_of_getElem? hf)
  obtain rfl := Option.some.inj (hturn.symm.trans hturn')
  have hmem := List.mem_of_getElem? hturn
  rcases hkind with hack | hrecv
  · obtain rfl := Core.isAck_iff.mp hack
    refine .inl ⟨((Core.turnsOk hcore).turn turn hmem).own _ hout rfl, ?_, hf⟩
    rw [← map_fst_seen h hz, List.getElem?_map, hseen]
    rfl
  · obtain ⟨turn', hturn', f', hout', hrecv'⟩ := hread.output
    obtain rfl := Option.some.inj (hturn.symm.trans hturn')
    have heq := (Core.dmOk hcore turn hmem).eq_of_dmRecv hout hout' hrecv hrecv'
    exact .inr ⟨congrArg Prod.fst heq, f, hf, hseen, hrecv⟩

/-! ## What the rows say -/

/-- **A session gets the direct messages for its user.** -/
theorem addressed (h : Reachable KeepsNames s) (hx : s.sessions k = some x) :
    Core.Addressed k x.username.bytes s.core := by
  refine Transition.Reachable.invariant (P := fun s => ∀ x, s.sessions k = some x →
    Core.Addressed k x.username.bytes s.core) ?_ ?_ h x hx
  · rintro s ⟨-, hnone, -⟩ x hx
    rw [hnone] at hx
    cases hx
  · rintro s t hr hs ⟨e, -, hst⟩ y hy
    have hcore := Reachable.core hr
    rcases hst.core_cases with ⟨-, hstep, hsame, -⟩ | heq
    · rw [hsame] at hy
      exact (hs y hy).step (identityOk (Reachable.keepsName hr k) hy).named hcore hstep
    · rw [heq]
      rcases hst.moves hy with ⟨x, hx, hmoves⟩ | ⟨-, u, -, rfl, -, hmentions⟩
      · rw [hmoves.username]
        exact hs x hx
      · -- nothing was enqueued on the connection yet
        intro turn hturn o ho hk
        have hnone : Core.enqueuedTo k s.core.trace = [] := flatMap_eq_nil_of_new
          (fun _ => Core.Effect.enqueuedTo_of_not_mentions) rfl (fun _ => rfl) hmentions
        rw [(Core.turnsOk hcore).enqueued] at hnone
        have hmem : o.2 ∈ turn.outputTo k := Core.mem_outputTo.mpr (hk ▸ ho)
        rw [List.flatMap_eq_nil_iff.mp hnone turn hturn] at hmem
        cases hmem

/-- What a session wrote as a direct message. -/
theorem SessionOk.exists_dm (hs : SessionOk s k x) (hcore : Core.Reachable s.core) {f : Frame}
    (hf : f ∈ Core.handledBy k s.core.trace) (htype : f.type = ClientMsgType.dm.toByte) :
    ∃ d ∈ x.dms, d.1 = f := by
  have hmem : some f ∈ x.dms.map (some ·.1) := by
    rw [hs.dms_eq]
    refine List.mem_filter.mpr ⟨List.mem_map_of_mem ?_, beq_iff_eq.mpr htype⟩
    exact (hs.handled (Core.inputOk hcore)).subset hf
  obtain ⟨d, hd, heq⟩ := List.mem_map.mp hmem
  exact ⟨d, hd, Option.some.inj heq⟩

/-- The gateway checks the target of a direct message, which thus has no zero. -/
theorem Sent.IsCommand.zero_notMem {c : Sent} (h : c.IsCommand) {target text : PyStr}
    (hdm : c.dm = some (target, text)) : 0 ∉ target := by
  obtain ⟨message, msgType, payload, hmessage, -, -, hentry⟩ := h
  rw [hdm] at hentry
  split_ifs at hentry with htype
  subst htype
  obtain ⟨target', text', hto, htext, -⟩ := dm_strings hmessage
  rw [hto, htext] at hentry
  obtain ⟨rfl, -⟩ := Prod.mk.inj (Option.some.inj hentry)
  obtain ⟨-, ⟨target'', text'', hvalues, hname, -⟩, -⟩ := corePayloadForCommand_ok hmessage
  rw [commandStrings, hto, htext] at hvalues
  obtain rfl : target = target'' := (List.cons.inj hvalues).1
  intro hmem
  unfold dmTarget isName at hname
  rw [Bool.and_eq_true, List.all_eq_true] at hname
  exact absurd (hname.2 0 hmem) (by decide)

/-- **What the core reads of a direct message**: the target that the browser sent, and the text up
to its first zero. -/
theorem SessionOk.fields_of_dm (hs : SessionOk s k x) {d : Frame × PyStr × PyStr} (hd : d ∈ x.dms)
    {target text : Bytes} (hread : Core.readDmPayload d.1.payload = some (target, text)) :
    decode target = some d.2.1 ∧ decode text = some (d.2.2.takeWhile (· ≠ 0)) := by
  obtain ⟨c, hc, hentry⟩ := List.mem_filterMap.mp hd
  obtain ⟨⟨target', text'⟩, hdm, rfl⟩ := Option.map_eq_some_iff.mp hentry
  have hcommand : c.IsCommand := by
    obtain ⟨cs, hcs, hcommands⟩ := hs.sent
    rw [hcs] at hc
    rcases List.mem_cons.mp hc with rfl | hc
    · cases hdm
    · exact hcommands c hc
  obtain ⟨encoded, hencoded, hshort, hpayload⟩ := stringPayload_ok (hcommand.payload hdm)
  obtain ⟨a, rest, ha, hrest, rfl⟩ := List.forall₂_cons_left_iff.mp hencoded
  obtain ⟨b, rest', hb, hrest', rfl⟩ := List.forall₂_cons_left_iff.mp hrest
  cases hrest'
  have hlena := hshort a List.mem_cons_self
  have hlenb := hshort b (List.mem_cons_of_mem _ List.mem_cons_self)
  simp only [hpayload, List.map_cons, List.map_nil, List.flatten_cons, List.flatten_nil,
    List.append_nil] at hread
  obtain ⟨rfl, rfl⟩ := Core.readDmPayload_fields (by omega) (by omega) hread
  refine ⟨?_, encode_eq_some_iff.mp (encode_takeWhile hb)⟩
  rw [← takeWhile_eq_iff.mpr (hcommand.zero_notMem hdm)]
  exact encode_eq_some_iff.mp (encode_takeWhile ha)

section

variable {d : Frame × PyStr × PyStr}

/-- The target of a direct message is the user of the session that gets it. -/
theorem target_of_dm (h : Reachable KeepsNames s) (hx : s.sessions k = some x)
    (hy : s.sessions j = some y) (hread : HasDm s j n y)
    (hturn : (Core.turns s.core.trace)[n]? = some turn) (hd : d ∈ x.dms)
    (hreq : turn.request = some d.1) : d.2.1 = y.username.name := by
  obtain ⟨turn', hturn', f, hf, hrecv⟩ := hread.output
  obtain rfl := Option.some.inj (hturn.symm.trans hturn')
  obtain ⟨frame, text, hframe, hfields⟩ :=
    addressed h hy turn (List.mem_of_getElem? hturn) (j, f) hf rfl hrecv
  obtain rfl := Option.some.inj (hreq.symm.trans hframe)
  have htarget := ((sessionOk h hx).fields_of_dm hd hfields).1
  exact Option.some.inj (htarget.symm.trans y.username.decode_bytes)

/-- **The row that the addressee stores.** -/
theorem row_of_dmRecv (h : Reachable KeepsNames s) (hx : s.sessions k = some x)
    (hy : s.sessions j = some y) (hturn : (Core.turns s.core.trace)[n]? = some turn)
    (hk : turn.conn = k) (hd : d ∈ x.dms) (hreq : turn.request = some d.1) {r : Stored}
    (hr : r ∈ y.stored) (hseen : (seen s j y)[r.index]? = some (frame, n))
    (hrecv : Core.isDmRecv frame = true) : r.own = false ∧ r.row =
      ⟨.dm, x.username.name, none, some y.username.name, d.2.2.takeWhile (· ≠ 0)⟩ := by
  have hcore := Reachable.core h
  obtain ⟨f, hf, hfrom⟩ := rowOk h hy r hr
  obtain rfl : f = frame := by
    rw [← map_fst_seen h hy, List.getElem?_map, hseen] at hf
    exact (Option.some.inj hf).symm
  have htype := Core.isDmRecv_iff.mp hrecv
  cases hfrom with
  | text hevent _ =>
    exact absurd (htype.symm.trans (gatewayEvent_of hevent).1) (by decide)
  | acknowledged hevent _ _ =>
    exact absurd (htype.symm.trans (gatewayEvent_of hevent).1) (by decide)
  | received hevent hown hrow =>
    refine ⟨hown, ?_⟩
    obtain ⟨-, hdecode⟩ := gatewayEvent_of hevent
    obtain ⟨hget, -⟩ := getElem?_seen hseen
    obtain ⟨turn', hturn', hout⟩ := Core.mem_outputsTo.mp (List.mem_of_getElem? hget)
    obtain rfl := Option.some.inj (hturn.symm.trans hturn')
    have hmem := List.mem_of_getElem? hturn
    have hsmall : f.payload.length ≤ cwMaxPayloadSize := by
      refine (Core.outputOk hcore.moveReachable).small j f ?_
      rw [← Core.map_fst_outputsTo hcore]
      exact List.mem_map_of_mem (List.mem_of_getElem? hget)
    have hsaid := (identityOk (Reachable.keepsName h k) hx).said turn hmem hk
    rw [hrow, sender_of_saidAs hsaid hout hsmall (.inr ⟨htype, _, hdecode⟩)]
    obtain ⟨request, target, text, sender, hrequest, -, hfields, hpayload⟩ :=
      (Core.dmOk hcore turn hmem).relayed _ hout hrecv
    obtain rfl := Option.some.inj (hreq.symm.trans hrequest)
    have htext := ((sessionOk h hx).fields_of_dm hd hfields).2
    simp only at hpayload
    rw [hpayload] at hdecode hsmall
    have hstrings := decodeStrings_fields_ok hsmall hdecode
    simp only [List.forall₂_cons] at hstrings
    rw [Option.some.inj (htext.symm.trans hstrings.2.1)]

/-- **The row that the sender stores.** -/
theorem row_of_ack (h : Reachable admits s) (hx : s.sessions k = some x)
    (hanswered : Core.Answered k s.core.trace)
    (hturn : (Core.turns s.core.trace)[n]? = some turn) {r : Stored} (hr : r ∈ x.stored)
    (hread : x.reads[r.index]? = some Core.okSent)
    (hout : (Core.outputsTo k s.core.trace)[r.index]? = some (Core.okSent, n)) :
    ∃ d ∈ x.dms, turn.request = some d.1 ∧ r.own = true ∧
      r.row = ⟨.dm, x.username.name, none, some d.2.1, d.2.2⟩ := by
  have hcore := Reachable.core h
  have hok := sessionOk h hx
  obtain ⟨f, hf, hfrom⟩ := rowOk h hx r hr
  obtain rfl := Option.some.inj (hread.symm.trans hf)
  have hevent := gatewayEvent_eq_sent.mpr (rfl : Core.okSent = Core.okSent)
  have hown : r.own = true := by
    cases hfrom with
    | text hother _ => cases hevent.symm.trans hother
    | received hother _ _ => cases hevent.symm.trans hother
    | acknowledged _ hown _ => exact hown
  obtain ⟨-, d, hd, hrow⟩ := (ackOk h hx hanswered).stored r hr hown
  obtain ⟨d', turn', hd', hturn', -, hreq⟩ := hok.dm_of_ack hcore hanswered hout
  obtain rfl := Option.some.inj (hturn.symm.trans hturn')
  rw [take_reads hok.reads (List.getElem?_eq_some_iff.mp hread).1.le] at hd'
  obtain rfl := Option.some.inj (hd.symm.trans hd')
  exact ⟨d, List.mem_of_getElem? hd, hreq, hown, hrow⟩

end

/-! ## Direct messages that are stored once -/

section

variable {db₀ : Database} {w : List (ℕ × Stored)} {r : Stored}

/-- A row of a direct message was stored by the session that sent it, on reading the
acknowledgement, or by the one that got it. -/
theorem Run.rowOfDm_cases (h : Run db₀ admits s w) (hx : s.sessions k = some x)
    (hy : s.sessions j = some y) (hread : HasDm s j n y)
    (hturn : (Core.turns s.core.trace)[n]? = some turn) (hk : turn.conn = k) {e : ℕ × Stored}
    (he : e ∈ w) (hof : IsRowOfDm s n e) :
    (∃ r ∈ x.stored, e = (k, r) ∧ HasAck s k n x ∧
        (Core.outputsTo k s.core.trace)[r.index]? = some (Core.okSent, n)) ∨
      ∃ r ∈ y.stored, e = (j, r) ∧ ∃ f, (seen s j y)[r.index]? = some (f, n) ∧
        Core.isDmRecv f = true := by
  obtain ⟨i, r⟩ := e
  obtain ⟨z, hz, hrz⟩ := h.mem_stored he
  rcases Gateway.rowOfDm_cases h.reachable hz hrz hof hread hturn with
    ⟨rfl, hok, hout⟩ | ⟨rfl, f, -, hseen, hrecv⟩
  · rw [hk] at hz hout ⊢
    obtain rfl := Option.some.inj (hx.symm.trans hz)
    refine .inl ⟨r, hrz, rfl, List.mem_of_getElem? (i := r.index) ?_, hout⟩
    rw [seen, List.getElem?_take, if_pos (List.getElem?_eq_some_iff.mp hok).1]
    exact hout
  · obtain rfl := Option.some.inj (hy.symm.trans hz)
    exact .inr ⟨r, hrz, rfl, f, hseen, hrecv⟩

/-- The one row, if the addressee has stored it and the sender has not read the acknowledgement. -/
theorem Run.rows_of_dmRecv (h : Run db₀ admits s w) (hx : s.sessions k = some x)
    (hy : s.sessions j = some y) (hread : HasDm s j n y)
    (hturn : (Core.turns s.core.trace)[n]? = some turn) (hk : turn.conn = k)
    (hr : r ∈ y.stored) (hseen : (seen s j y)[r.index]? = some (frame, n))
    (hrecv : Core.isDmRecv frame = true) (hnot : ¬ HasAck s k n x) :
    (w.filter fun e => IsRowOfDm s n e) = [(j, r)] := by
  obtain ⟨hget, -⟩ := getElem?_seen hseen
  refine filter_eq_singleton (h.nodup.filter _) (h.mem_of_stored hy hr)
    (decide_eq_true ⟨(frame, n), hget, .inr hrecv, rfl⟩) fun e he hof => ?_
  rcases h.rowOfDm_cases hx hy hread hturn hk he (of_decide_eq_true hof) with
    ⟨r', -, rfl, hack, -⟩ | ⟨r', hr', rfl, f', hseen', hrecv'⟩
  · exact absurd hack hnot
  · have hindex := seen_inj h.reachable (getElem?_seen hseen').1 hget hrecv' hrecv
    rw [stored_inj h.reachable hy hr' hr hindex]

/-- The one row, if the sender has stored it and the addressee has not. -/
theorem Run.rows_of_ack (h : Run db₀ admits s w) (hx : s.sessions k = some x)
    (hy : s.sessions j = some y) (hread : HasDm s j n y)
    (hturn : (Core.turns s.core.trace)[n]? = some turn) (hk : turn.conn = k)
    (hr : r ∈ x.stored)
    (hout : (Core.outputsTo k s.core.trace)[r.index]? = some (Core.okSent, n))
    (hnot : ¬ HasRow s j n y) : (w.filter fun e => IsRowOfDm s n e) = [(k, r)] := by
  refine filter_eq_singleton (h.nodup.filter _) (h.mem_of_stored hx hr)
    (decide_eq_true ⟨(Core.okSent, n), hout, .inl rfl, rfl⟩) fun e he hof => ?_
  rcases h.rowOfDm_cases hx hy hread hturn hk he (of_decide_eq_true hof) with
    ⟨r', hr', rfl, -, hout'⟩ | ⟨r', hr', rfl, f', hseen', hrecv'⟩
  · have hindex : r'.index = r.index := Core.outputsTo_inj (Reachable.core h.reachable) hout' hout
      (fun hapart => hapart.2 ⟨rfl, rfl⟩) fun hapart => hapart.2 ⟨rfl, rfl⟩
    rw [stored_inj h.reachable hx hr' hr hindex]
  · exact absurd ⟨r', hr', (f', n), hseen', hrecv', rfl⟩ hnot

end

/-- **Direct messages that are stored once.**  In every run all of whose events meet `DeliversOnce`
for the session that sends, and in which the core answers its direct messages and refuses it
nothing, a direct message that was read by the session of its addressee has exactly one row, as
soon as the sender has read the acknowledgement or stopped reading.  It names the two users, and its
text is what the browser of the sender sent, up to the first zero if the addressee stored it. -/
theorem dm_stored_once (db₀ : Database) (k : ℕ) :
    ∀ s w, Run db₀ (DeliversOnce k) s w →
      s.db.messages = db₀.messages ++ w.map (fun e => e.2.row) ∧
      (Core.Answered k s.core.trace → ∀ x j y n turn, s.sessions k = some x →
        s.sessions j = some y → HasDm s j n y →
        (Core.turns s.core.trace)[n]? = some turn → turn.conn = k →
        x.reading = false ∨ HasAck s k n x →
        ∃ d ∈ x.dms, turn.request = some d.1 ∧ d.2.1 = y.username.name ∧
          ∃ e, (w.filter fun e => IsRowOfDm s n e) = [e] ∧
            e.2.row = ⟨.dm, x.username.name, none, some y.username.name,
              if e.2.own then d.2.2 else d.2.2.takeWhile (· ≠ 0)⟩) := by
  intro s w h
  refine ⟨h.messages, fun hanswered x j y n turn hx hy hread hturn hk hstops => ?_⟩
  have hr := h.reachable
  have hcore := Reachable.core hr
  have hkeeps : Reachable KeepsNames s := Transition.Reachable.of_admits (fun _ _ h => h.1) hr
  rcases storedOnce hr hx hy hread hturn hk with
    ⟨⟨r, hry, ⟨f, m⟩, hseen, hrecv, hm⟩, -, hnot⟩ | ⟨hnot, hor⟩
  · -- the addressee has stored it
    have hm : m = n := hm
    subst hm
    obtain ⟨turn', hturn', g, hg, hdm⟩ := hread.output
    obtain rfl := Option.some.inj (hturn.symm.trans hturn')
    obtain ⟨request, hrequest, htype, hhandled⟩ := request_of_dmRecv hr hturn hg hdm
    obtain ⟨d, hd, rfl⟩ := (sessionOk hr hx).exists_dm hcore (hk ▸ hhandled) htype
    obtain ⟨hown, hrow⟩ := row_of_dmRecv hkeeps hx hy hturn hk hd hrequest hry hseen hrecv
    refine ⟨d, hd, hrequest, target_of_dm hkeeps hx hy hread hturn hd hrequest, (j, r),
      h.rows_of_dmRecv hx hy hread hturn hk hry hseen hrecv hnot, ?_⟩
    rw [hown]
    exact hrow
  · -- the sender has stored it
    have hack : HasAck s k n x := by
      refine hstops.elim (fun hstopped => hor.resolve_left fun hreads => ?_) id
      rw [hstopped] at hreads
      cases hreads
    obtain ⟨i, hi⟩ := List.mem_iff_getElem?.mp hack
    obtain ⟨hout, -⟩ := getElem?_seen hi
    have hok : x.reads[i]? = some Core.okSent := by
      rw [← map_fst_seen hr hx, List.getElem?_map, hi]
      rfl
    obtain ⟨r, hrx, rfl⟩ := exists_row_of_ack hr hx hanswered hok
    obtain ⟨d, hd, hrequest, hown, hrow⟩ := row_of_ack hr hx hanswered hturn hrx hok hout
    have htarget := target_of_dm hkeeps hx hy hread hturn hd hrequest
    refine ⟨d, hd, hrequest, htarget, (k, r),
      h.rows_of_ack hx hy hread hturn hk hrx hout hnot, ?_⟩
    rw [hown, ← htarget]
    exact hrow

/-! ## A condition on schedules -/

/-- The sender of a direct message is counted, and session `k` still reads. -/
def SenderReads (k : ℕ) (s : State) : GatewayEvent → Prop
  | .dm sender _ => s.active sender ≠ 0 ∧ ∀ x ∈ s.sessions k, x.reading = true
  | _ => True

instance (k : ℕ) (s : State) : (event : GatewayEvent) → Decidable (SenderReads k s event)
  | .dm sender _ => inferInstanceAs
      (Decidable (s.active sender ≠ 0 ∧ ∀ x ∈ s.sessions k, x.reading = true))
  | .chat _ _ _ | .who _ | .channels _ | .ok _ | .error _ | .system _ | .coreStats _
  | .coreStatsRaw _ | .raw _ _ => isTrue trivial

/-- A condition on operations under which their events are those of `DeliversOnce`. -/
def DeliversOnceOp (k : ℕ) (s : State) (op : Op) : Prop :=
  NoNickOp s op ∧
  match op with
  | .read i => ∀ z ∈ s.sessions i, ∀ frame ∈ s.nextFrame i z,
      (gatewayEvent frame).isOk = true ∧ z.username.name ∈ s.db.usernames ∧
        ∀ event ∈ (gatewayEvent frame).toOption, SenderReads k s event
  | .finish _ _ | .halt _ => AllAcked s k
  | _ => True

instance (k : ℕ) (s : State) : (op : Op) → Decidable (DeliversOnceOp k s op)
  | .read i => inferInstanceAs (Decidable (_ ∧ ∀ z ∈ s.sessions i, ∀ frame ∈ s.nextFrame i z,
      (gatewayEvent frame).isOk = true ∧ z.username.name ∈ s.db.usernames ∧
        ∀ event ∈ (gatewayEvent frame).toOption, SenderReads k s event))
  | .finish _ _ | .halt _ => inferInstanceAs (Decidable (_ ∧ AllAcked _ _))
  | .connect _ _ | .deliver _ _ | .flush _ | .command _ _ => inferInstanceAs (Decidable (_ ∧ True))

theorem admitted_of_deliversOnceOp (k : ℕ) (s : State) (op : Op) (h : DeliversOnceOp k s op) :
    Admitted (DeliversOnce k) s op := by
  have hkeeps := admitted_keepsNames s op h.1
  obtain ⟨-, hop⟩ := h
  cases op with
  | connect fd u => exact ⟨⟨hkeeps.1, trivial⟩, hkeeps.2, trivial⟩
  | deliver i frame => exact ⟨⟨hkeeps.1, trivial⟩, hkeeps.2, trivial⟩
  | flush i => exact ⟨hkeeps, trivial⟩
  | command _ _ => exact ⟨hkeeps, trivial⟩
  | halt i => exact ⟨hkeeps, fun _ => hop⟩
  | finish i cancelled =>
    cases cancelled with
    | true => exact ⟨hkeeps, fun _ => hop⟩
    | false => exact ⟨hkeeps, trivial⟩
  | read i =>
    refine ⟨hkeeps, fun z frame hz _ hnext => ?_⟩
    obtain ⟨hok, huser, hreads⟩ := hop z hz frame hnext
    have hnot : ¬ z.Raises s.active s.db frame := by
      rintro (⟨e, herror⟩ | ⟨hnot, -⟩)
      · rw [herror] at hok
        cases hok
      · exact hnot huser
    refine ⟨fun _ hraises => absurd hraises hnot, fun n turn _ _ _ _ => ⟨hnot, ?_⟩⟩
    intro sender text hevent x hx
    obtain ⟨hcounted, hreading⟩ := hreads (.dm sender text) (by rw [hevent]; rfl)
    exact iff_of_true hcounted (.inl (hreading x hx))

/-! ## Three schedules -/

/-- The frame of `dmBob`. -/
def dmBobFrame : Frame :=
  ⟨ClientMsgType.dm.toByte, stringField (ascii "bob") ++ stringField (ascii "hi")⟩

/-- `alice` writes to `bob`, and the core sends both their frames. -/
def dmSent : List Op := aliceOnline ++
  [.connect 5 bob, .deliver 1 (helloFrame bob), .flush 1, .read 2,
    .command 1 (.ok (.object dmBob)), .deliver 0 dmBobFrame, .flush 0, .flush 1]

/-- Both read them, and leave. -/
def dmReadByBoth : List Op := dmSent ++ [.read 2, .read 1, .finish 1 true, .finish 2 true]

theorem dm_stored_once_room : ∃ w e,
    Run twoUsers.db (DeliversOnce 1) (twoUsers.run dmReadByBoth) w ∧
    (w.filter fun e => IsRowOfDm (twoUsers.run dmReadByBoth) 2 e) = [e] ∧
    e.2.row.sender = alice.name ∧ e.2.row.recipient = some bob.name := by
  obtain ⟨⟨w, hrun⟩, -⟩ := run_of_schedule [1, 2] dmReadByBoth initial_twoUsers
    (by decide +kernel) (.mono (admitted_of_deliversOnceOp 1) (by decide +kernel))
  obtain ⟨x, hx, y, hy, turn, hturn, hk, hreading, hread, hnames⟩ :
      ∃ x ∈ (twoUsers.run dmReadByBoth).sessions 1, ∃ y ∈ (twoUsers.run dmReadByBoth).sessions 2,
      ∃ turn ∈ (Core.turns (twoUsers.run dmReadByBoth).core.trace)[2]?, turn.conn = 1 ∧
        x.reading = false ∧ HasDm (twoUsers.run dmReadByBoth) 2 2 y ∧
        x.username = alice ∧ y.username = bob := by decide +kernel
  obtain ⟨d, -, -, -, e, he, hrow⟩ := (dm_stored_once twoUsers.db 1 _ w hrun).2 (by decide +kernel)
    x 2 y 2 turn hx hy hread hturn hk (.inl hreading)
  exact ⟨w, e, hrun, he, by rw [hrow, hnames.1], by rw [hrow, hnames.2]⟩

/-- `bob` reads the direct message while `alice` is counted, and she leaves without having read the
acknowledgement. -/
def dmUnacknowledged : List Op := dmSent ++ [.read 2, .finish 1 true, .finish 2 true]

/-- `alice` reads the acknowledgement and leaves, and then `bob` reads the direct message. -/
def dmReadLate : List Op := dmSent ++ [.read 1, .finish 1 true, .read 2, .finish 2 true]

/-- The direct message of turn `n` was read by session `j`, and this session and session `k`, which
sent it, have finished. -/
def DmFinished (s : State) (k j n : ℕ) : Prop :=
  (∃ turn ∈ (Core.turns s.core.trace)[n]?, turn.conn = k) ∧
    (∃ x ∈ s.sessions k, x.phase = .over ∧ x.reading = false) ∧
    ∃ y ∈ s.sessions j, HasDm s j n y ∧ y.phase = .over ∧ y.reading = false

instance (s : State) (k j n : ℕ) : Decidable (DmFinished s k j n) := by
  unfold DmFinished
  infer_instance

/-- **The first is never stored, and the second is stored twice.** -/
theorem dm_lost_by_leaving :
    (∃ s w, Run twoUsers.db KeepsNames s w ∧ Core.Answered 1 s.core.trace ∧ DmFinished s 1 2 2 ∧
      s.db.messages = []) ∧
    ∃ s w, Run twoUsers.db KeepsNames s w ∧ Core.Answered 1 s.core.trace ∧ DmFinished s 1 2 2 ∧
      s.db.messages = [⟨.dm, alice.name, none, some bob.name, py "hi"⟩,
        ⟨.dm, alice.name, none, some bob.name, py "hi"⟩] := by
  constructor
  · obtain ⟨⟨w, hrun⟩, -⟩ := run_of_schedule [1, 2] dmUnacknowledged initial_twoUsers
      (by decide +kernel) (.mono admitted_keepsNames (by decide +kernel))
    exact ⟨_, w, hrun, by decide +kernel, by decide +kernel, by decide +kernel⟩
  · obtain ⟨⟨w, hrun⟩, -⟩ := run_of_schedule [1, 2] dmReadLate initial_twoUsers
      (by decide +kernel) (.mono admitted_keepsNames (by decide +kernel))
    exact ⟨_, w, hrun, by decide +kernel, by decide +kernel, by decide +kernel⟩

end Gateway
end ChannelWire
