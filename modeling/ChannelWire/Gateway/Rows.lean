import ChannelWire.Core.Echoes
import ChannelWire.Gateway.Identity
import ChannelWire.Gateway.Storage

/-!
# The rows of a session

What a session stores, it stores on reading a frame, and the row is made of that frame, of the name
of the session and, for an acknowledged direct message, of `pending_dms` (`rowOk`).

A text of the user that is read is stored, always: `save_channel_message` adds what its row refers
to, so its commit does not fail.  The rows of channel messages of a session are thus as many as the
texts of its user that it has read, in the same order (`textRows_index`).
-/

namespace ChannelWire
namespace Gateway

open Labelling

/-! ## How a session moves -/

/-- What an event in state `s` does to what session `k` has read and stored. -/
inductive Moves (s : State) (k : ℕ) (x : Session) : Event → Session → Prop where
  | idle {e : Event} {y : Session} : y.username = x.username → y.reads = x.reads →
      y.stored = x.stored → y.reading = x.reading → Moves s k x e y
  /-- The task that reads from the core ends, at an `await` of its own or because it is cancelled. -/
  | stops {e : Event} {y : Session} : e = .halt k ∨ e = .finish k true → y.username = x.username →
      y.reads = x.reads → y.stored = x.stored → y.reading = false → Moves s k x e y
  /-- The answer to `HELLO` is read, be the browser still there or not. -/
  | answered {e : Event} {frame : Frame} {y : Session} :
      e = .read k ∨ (∃ counted, e = .abandon k counted) → x.phase = .registering →
      s.nextFrame k x = some frame → y.username = x.username → y.reads = x.reads ++ [frame] →
      y.stored = x.stored → Moves s k x e y
  | round {frame : Frame} {y : Session} {db : Database} : x.phase ≠ .registering →
      x.reading = true → s.nextFrame k x = some frame → Session.Reads x y frame →
      Session.Round s.active s.db x frame y db → Moves s k x (.read k) y

variable {s t : State} {e : Event} {k : ℕ} {x y : Session}

/-- **A session moves or was opened.** -/
theorem Step.moves (h : Step s e t) (hy : t.sessions k = some y) :
    (∃ x, s.sessions k = some x ∧ Moves s k x e y) ∨
      s.sessions k = none ∧ ∃ u, e = .connect k u ∧ y = openRegisteredCore u ∧
        .accepted k ∈ s.core.trace ∧
        ∀ f ∈ s.core.trace, f.Mentions k → f = .accepted k ∨ ∃ reason, f = .closed k reason := by
  cases h.becomes hy with
  | idle hx => exact .inl ⟨y, hx, .idle rfl rfl rfl rfl⟩
  | connect hnone hacc hmentions => exact .inr ⟨hnone, _, rfl, rfl, hacc, hmentions⟩
  | @registered x frame hx hphase hnext =>
    exact .inl ⟨x, hx, .answered (.inl rfl) hphase hnext (Session.registered_username ..)
      (Session.registered_reads ..) (Session.registered_stored ..)⟩
  | @abandoned x frame counted hx hphase hnext _ =>
    exact .inl ⟨x, hx, .answered (.inr ⟨counted, rfl⟩) hphase hnext rfl rfl rfl⟩
  | @read x frame hx hphase hreading hnext =>
    exact .inl ⟨x, hx, .round hphase hreading hnext (Session.pumpCoreToWs_reads ..)
      (Session.pumpCoreToWs_round ..)⟩
  | @command x loaded hx _ _ =>
    have hwrites := Session.pumpWsToCore_writes s.db x loaded
    exact .inl ⟨x, hx, .idle hwrites.username hwrites.reads hwrites.stored hwrites.reading⟩
  | @finish x cancelled hx =>
    cases cancelled with
    | true => exact .inl ⟨x, hx, .stops (.inr rfl) rfl rfl rfl (Bool.and_false _)⟩
    | false => exact .inl ⟨x, hx, .idle rfl rfl rfl (Bool.and_true _)⟩
  | @halt x hx _ => exact .inl ⟨x, hx, .stops (.inl rfl) rfl rfl rfl rfl⟩

theorem Step.sessions_eq (h : Step s e t) :
    t.sessions = s.sessions ∨ ∃ k y, t.sessions = Function.update s.sessions k (some y) := by
  cases h with
  | core _ _ | devToken _ | register _ => exact .inl rfl
  | connect _ _ _ | command _ _ _ | halt _ _ => exact .inr ⟨_, _, rfl⟩
  | @read k x frame _ hphase _ =>
    rcases hphase with hphase | ⟨hphase, -⟩
    · refine .inr ⟨k, x.registered frame, ?_⟩
      unfold State.read
      rw [hphase]
      simp only
      split_ifs <;> rfl
    · rw [State.read_eq hphase]
      exact .inr ⟨_, _, rfl⟩
  | @abandon k x frame counted _ _ _ _ =>
    refine .inr ⟨k, x.abandoned frame, ?_⟩
    unfold State.abandon
    simp only
    split_ifs <;> rfl
  | @finish k x cancelled _ _ =>
    refine .inr ⟨k, x.finished cancelled, ?_⟩
    unfold State.finish
    simp only
    split_ifs <;> rfl

/-- A session stays. -/
theorem Step.moves_of (h : Step s e t) (hx : s.sessions k = some x) :
    ∃ y, t.sessions k = some y ∧ Moves s k x e y := by
  obtain ⟨y, hy⟩ : ∃ y, t.sessions k = some y := by
    rcases h.sessions_eq with heq | ⟨j, y, heq⟩
    · exact ⟨x, heq ▸ hx⟩
    · rw [heq]
      rcases eq_or_ne k j with rfl | hne
      · exact ⟨y, Function.update_self ..⟩
      · exact ⟨x, (Function.update_of_ne hne ..).trans hx⟩
  refine ⟨y, hy, ?_⟩
  rcases h.moves hy with ⟨x', hx', hmoves⟩ | ⟨hnone, -⟩
  · rwa [Option.some.inj (hx.symm.trans hx')]
  · rw [hx] at hnone
    cases hnone

/-- After the answer to `HELLO`, the reading of a frame is a round of `pump_core_to_ws`. -/
theorem Step.round (h : Step s (.read k) t) (hx : s.sessions k = some x)
    (hphase : x.phase ≠ .registering) : ∃ frame y, s.nextFrame k x = some frame ∧
      t.sessions k = some y ∧ Session.Reads x y frame ∧
      Session.Round s.active s.db x frame y t.db := by
  cases h with
  | @read _ x' frame hx' hor hnext =>
    obtain rfl := Option.some.inj (hx.symm.trans hx')
    rw [State.read_eq hphase]
    refine ⟨frame, _, hnext, ?_, Session.pumpCoreToWs_reads .., Session.pumpCoreToWs_round ..⟩
    exact Function.update_self ..

theorem Moves.username (h : Moves s k x e y) : y.username = x.username := by
  cases h with
  | idle husername _ _ _ => exact husername
  | stops _ husername _ _ _ => exact husername
  | answered _ _ _ husername _ _ => exact husername
  | round _ _ _ hreads _ => exact hreads.username

/-- The user stays. -/
theorem Step.keeps_session (h : Step s e t) (hx : s.sessions k = some x) :
    ∃ y, t.sessions k = some y ∧ y.username = x.username := by
  obtain ⟨y, hy, hmoves⟩ := h.moves_of hx
  exact ⟨y, hy, hmoves.username⟩

theorem Moves.reads_prefix (h : Moves s k x e y) : x.reads <+: y.reads := by
  cases h with
  | idle _ hreads _ _ | stops _ _ hreads _ _ => exact hreads ▸ List.prefix_rfl
  | answered _ _ _ _ hreads _ =>
    rw [hreads]
    exact List.prefix_append ..
  | round _ _ _ hreads _ =>
    rw [hreads.reads]
    exact List.prefix_append ..

/-! ## Rows and frames -/

/-- The row was made of the frame, by a session of the user. -/
inductive FromFrame (username : PyStr) (r : Stored) (frame : Frame) : Prop where
  | text {channel text : PyStr} : gatewayEvent frame = .ok (.chat channel username text) →
      r.row = ⟨.channel, username, some channel, none, text⟩ → FromFrame username r frame
  | received {sender text : PyStr} : gatewayEvent frame = .ok (.dm sender text) → r.own = false →
      r.row = ⟨.dm, sender, none, some username, text⟩ → FromFrame username r frame
  | acknowledged {target text : PyStr} :
      gatewayEvent frame = .ok (.ok (py "direct message sent")) → r.own = true →
      r.row = ⟨.dm, username, none, some target, text⟩ → FromFrame username r frame

/-- What a round stores is made of the frame it read. -/
theorem Session.Round.fromFrame {active : PyStr → ℕ} {db db' : Database} {frame : Frame}
    (h : Session.Round active db x frame y db') : y.stored = x.stored ∨
      ∃ r, y.stored = x.stored ++ [r] ∧ r.index = x.reads.length ∧
        FromFrame x.username.name r frame := by
  cases h with
  | raises _ _ hstored => exact .inl hstored
  | text hevent _ hsaves => exact .inr ⟨_, hsaves.stored, rfl, .text hevent rfl⟩
  | received hevent _ _ hsaves => exact .inr ⟨_, hsaves.stored, rfl, .received hevent rfl rfl⟩
  | acknowledged hevent _ hsaves =>
    exact .inr ⟨_, hsaves.stored, rfl, .acknowledged hevent rfl rfl⟩
  | shows _ _ _ _ _ _ hstored => exact .inl hstored

variable {admits : State → Event → Prop}

/-- **A row is made of the frame that was read for it.** -/
theorem rowOk (h : Reachable admits s) (hx : s.sessions k = some x) :
    ∀ r ∈ x.stored, ∃ f, x.reads[r.index]? = some f ∧ FromFrame x.username.name r f := by
  refine Transition.Reachable.invariant (P := fun s => ∀ k x, s.sessions k = some x →
    ∀ r ∈ x.stored, ∃ f, x.reads[r.index]? = some f ∧ FromFrame x.username.name r f) ?_ ?_ h k x hx
  · rintro s ⟨-, hnone, -⟩ k x hx
    rw [hnone] at hx
    cases hx
  · rintro s t - hs ⟨e, -, hst⟩ k y hy r hr
    rcases hst.moves hy with ⟨x, hx, hmoves⟩ | ⟨-, u, -, rfl, -⟩
    · have hold : r ∈ x.stored → ∃ f, y.reads[r.index]? = some f ∧
          FromFrame y.username.name r f := by
        intro hr
        obtain ⟨f, hf, hfrom⟩ := hs k x hx r hr
        exact ⟨f, getElem?_of_isPrefix hmoves.reads_prefix hf, hmoves.username ▸ hfrom⟩
      cases hmoves with
      | idle _ _ hstored _ | stops _ _ _ hstored _ => exact hold (hstored ▸ hr)
      | answered _ _ _ _ _ hstored => exact hold (hstored ▸ hr)
      | @round frame y db _ _ _ hreads hround =>
        rcases hround.fromFrame with hstored | ⟨r', hstored, hindex, hfrom⟩
        · exact hold (hstored ▸ hr)
        · rw [hstored] at hr
          rcases List.mem_append.mp hr with hr | hr
          · exact hold hr
          · obtain rfl := List.mem_singleton.mp hr
            refine ⟨frame, ?_, hreads.username ▸ hfrom⟩
            rw [hreads.reads, hindex]
            exact List.getElem?_concat_length ..
    · cases hr

/-! ## Texts -/

/-- The frame is a text of the user. -/
def isOwnText (username : PyStr) (frame : Frame) : Bool :=
  match gatewayEvent frame with
  | .ok (.chat _ sender _) => sender = username
  | _ => false

theorem isOwnText_iff {username : PyStr} {frame : Frame} : isOwnText username frame = true ↔
    ∃ channel text, gatewayEvent frame = .ok (.chat channel username text) := by
  unfold isOwnText
  constructor
  · intro h
    split at h
    · next channel sender text hevent => exact ⟨channel, text, by rw [hevent, of_decide_eq_true h]⟩
    · cases h
  · rintro ⟨channel, text, hevent⟩
    rw [hevent]
    exact decide_eq_true rfl

namespace Session

/-- The rows of channel messages that the session stored. -/
def textRows (x : Session) : List Stored := x.stored.filter fun r => r.row.kind = .channel

/-- Which of the frames that were read are texts of the user. -/
def ownTexts (x : Session) : List ℕ :=
  (labelled (fun f => if isOwnText x.username.name f then [f] else []) x.reads).map Prod.snd

theorem ownTexts_eq (h : y.username = x.username) (hreads : y.reads = x.reads) :
    y.ownTexts = x.ownTexts := by
  rw [ownTexts, ownTexts, h, hreads]

theorem ownTexts_concat {frame : Frame} (h : y.username = x.username)
    (hreads : y.reads = x.reads ++ [frame]) : y.ownTexts =
      x.ownTexts ++ if isOwnText x.username.name frame then [x.reads.length] else [] := by
  rw [ownTexts, ownTexts, h, hreads, labelled_concat, List.map_append]
  split_ifs <;> rfl

theorem mem_ownTexts {i : ℕ} : i ∈ x.ownTexts ↔
    ∃ frame, x.reads[i]? = some frame ∧ isOwnText x.username.name frame = true := by
  rw [ownTexts, List.mem_map]
  constructor
  · rintro ⟨⟨frame, n⟩, hmem, rfl⟩
    obtain ⟨a, ha, hb⟩ := mem_labelled.mp hmem
    split_ifs at hb with hown
    · exact ⟨a, ha, hown⟩
    · cases hb
  · rintro ⟨frame, hframe, hown⟩
    refine ⟨(frame, i), mem_labelled.mpr ⟨frame, hframe, ?_⟩, rfl⟩
    rw [if_pos hown]
    exact List.mem_singleton_self frame

theorem nodup_ownTexts (x : Session) : x.ownTexts.Nodup := by
  have hone : ∀ f : Frame, (if isOwnText x.username.name f then [f] else []).length ≤ 1 := by
    intro f
    split_ifs
    · exact Nat.le_refl 1
    · exact Nat.zero_le 1
  exact List.pairwise_map.mpr ((labelled_pairwise hone x.reads).imp Nat.ne_of_lt)

/-- A round that raises reads no text of the user. -/
theorem Raises.not_isOwnText {active : PyStr → ℕ} {db : Database} {frame : Frame}
    (h : Raises active db x frame) : isOwnText x.username.name frame = false := by
  by_contra hown
  obtain ⟨channel, text, hchat⟩ := isOwnText_iff.mp (eq_true_of_ne_false hown)
  rcases h with ⟨e, hevent⟩ | ⟨-, ⟨-, text, hevent⟩ | ⟨text, rest, hevent, -⟩⟩ <;>
    rw [hevent] at hchat <;> cases hchat

/-- A round stores a text of the user and no other text. -/
theorem Round.textRows {active : PyStr → ℕ} {db db' : Database} {frame : Frame}
    (h : Round active db x frame y db') : y.textRows.map Stored.index =
      x.textRows.map Stored.index ++
        if isOwnText x.username.name frame then [x.reads.length] else [] := by
  have hsame : y.stored = x.stored → ¬ isOwnText x.username.name frame = true →
      y.textRows.map Stored.index = x.textRows.map Stored.index ++
        if isOwnText x.username.name frame then [x.reads.length] else [] := by
    intro hstored hown
    rw [if_neg hown, List.append_nil]
    unfold Session.textRows
    rw [hstored]
  have hdm : ∀ {added : Tables} {sender recipient text : PyStr} {own : Bool} {event : GatewayEvent},
      Saves db x y db' added ⟨.dm, sender, none, some recipient, text⟩ own →
      gatewayEvent frame = .ok event → (∀ channel text, event ≠ .chat channel x.username.name text) →
      y.textRows.map Stored.index = x.textRows.map Stored.index ++
        if isOwnText x.username.name frame then [x.reads.length] else [] := by
    intro added sender recipient text own event hsaves hevent hchat
    rw [if_neg fun hown => (by
      obtain ⟨channel, text, hown⟩ := isOwnText_iff.mp hown
      exact hchat channel text (Except.ok.inj (hevent.symm.trans hown))), List.append_nil]
    unfold Session.textRows
    rw [hsaves.stored, List.filter_append]
    exact congrArg (List.map _) (List.append_nil _)
  cases h with
  | raises hraises _ hstored =>
    exact hsame hstored (ne_true_of_eq_false hraises.not_isOwnText)
  | text hevent _ hsaves =>
    rw [if_pos (isOwnText_iff.mpr ⟨_, _, hevent⟩)]
    unfold Session.textRows
    rw [hsaves.stored, List.filter_append, List.map_append]
    rfl
  | received hevent _ _ hsaves => exact hdm hsaves hevent nofun
  | acknowledged hevent _ hsaves => exact hdm hsaves hevent nofun
  | shows hevent hchat _ _ _ _ hstored =>
    refine hsame hstored fun hown => ?_
    obtain ⟨channel, text, hown⟩ := isOwnText_iff.mp hown
    exact hchat channel text (Except.ok.inj (hevent.symm.trans hown))

end Session

end Gateway
end ChannelWire
