import ChannelWire.Core.ActiveChannel
import ChannelWire.Frontend.Dashboard
import ChannelWire.Gateway.Decoding
import ChannelWire.Gateway.Runs

/-!
# The active channel of the dashboard

The core holds the active channel of a client, and the dashboard follows it: `handleGatewayEvent`
changes `activeChannelRef` on the `ok` messages that begin with `joined` or `switched`, and on
`left channel`.

The frames of the core are what the events of a session are made of (`pumpCoreToWs_shown`), the
accepted `JOIN`, `SWITCH` and `LEAVE` commands are what the frames tell of (`Core.Told`), and so
both sides are folds over these commands.  `activeChannelRef_iff` says when the folds agree: a
`LEAVE` of a channel that is not the active one is what the dashboard does not tell from the other.
-/

namespace ChannelWire
namespace Frontend

open Gateway (PyStr py asText ValueError Session State Shown)
open ChannelWire.Core (ChannelChange channelChanges)
open Utf8

variable {s : State} {k : ℕ} {x y : Session} {frame : Frame}
  {admits : State → Gateway.Event → Prop}

/-! ## The messages of a session -/

/-- The object the browser gets; `str` is the text of an exception. -/
def browserEvent (str : ValueError → PyStr) : Shown → GatewayEvent
  | .ready username => .ready username
  | .refused error => .error (str error)
  | .event (.chat channel sender text) => .chat channel sender text
  | .event (.dm sender text) => .dm sender text
  | .event (.who users) => .who users
  | .event (.channels channels) => .channels channels
  | .event (.ok message) => .ok message
  | .event (.error message) => .error message
  | .event (.system message) => .system message
  | .event (.coreStats _) | .event (.coreStatsRaw _) | .event (.raw _ _) => .other

/-- `handleGatewayEvent`, on all messages of a socket. -/
def Dashboard.handleAll (d : Dashboard) (str : ValueError → PyStr) (token : PyStr)
    (sourceSocket : Option ℕ) (shown : List Shown) : Dashboard :=
  shown.foldl (fun d m => d.handleGatewayEvent token sourceSocket (browserEvent str m)) d

/-! ## `activeChannelRef` -/

/-- What `activeChannelRef` becomes by an `ok`. -/
def refAfterOk (ref message : PyStr) : PyStr :=
  if isChannelMessage message then message.drop (message.idxOf 0x20 + 1)
  else if message = py "left channel" then [] else ref

def refAfterShown (ref : PyStr) : Shown → PyStr
  | .event (.ok message) => refAfterOk ref message
  | _ => ref

/-- What a frame makes of it, if it is shown. -/
def refAfterFrame (ref : PyStr) (frame : Frame) : PyStr :=
  if frame.type = ServerMsgType.ok.toByte then refAfterOk ref (decodeReplace frame.payload) else ref

/-- What an accepted command makes of it. -/
def refAfterChange (_ : PyStr) : ChannelChange → PyStr
  | .enter name => asText name
  | .leave _ => []

namespace Dashboard

variable (d : Dashboard)

@[simp] theorem pushLine_ref (line : ChatLine) :
    (d.pushLine line).activeChannelRef = d.activeChannelRef := by
  simp only [pushLine]

@[simp] theorem pushStatus_ref (text : PyStr) :
    (d.pushStatus text).activeChannelRef = d.activeChannelRef := pushLine_ref ..

@[simp] theorem setError_ref (text : PyStr) :
    (d.setError text).activeChannelRef = d.activeChannelRef := rfl

@[simp] theorem sendOn_ref (socket : Option ℕ) (command : Command) :
    (d.sendOn socket command).activeChannelRef = d.activeChannelRef := by
  cases socket <;> rfl

@[simp] theorem send_ref (command : Command) :
    (d.send command).1.activeChannelRef = d.activeChannelRef := by
  unfold send
  split_ifs <;> simp

@[simp] theorem requestUsers_ref : d.requestUsers.activeChannelRef = d.activeChannelRef := by
  have hsend := d.send_ref .who
  unfold requestUsers
  split <;> simp_all

@[simp] theorem refreshStats_ref (token : PyStr) :
    (d.refreshStats token .handler).activeChannelRef = d.activeChannelRef := by
  unfold refreshStats
  split_ifs <;> rfl

theorem handleText_ref (isOk : Bool) (message : PyStr) :
    (d.handleText isOk message).activeChannelRef =
      if isOk then refAfterOk d.activeChannelRef message else d.activeChannelRef := by
  unfold handleText refAfterOk
  cases isOk with
  | false => rfl
  | true =>
    simp only [Bool.true_and, if_true]
    split_ifs <;> simp_all

/-- **What a message does to `activeChannelRef`.** -/
theorem handleGatewayEvent_ref (str : ValueError → PyStr) (token : PyStr) (sourceSocket : Option ℕ)
    (m : Shown) : (d.handleGatewayEvent token sourceSocket (browserEvent str m)).activeChannelRef =
      refAfterShown d.activeChannelRef m := by
  unfold handleGatewayEvent
  rw [refreshStats_ref]
  rcases m with username | event | error
  · simp only [browserEvent]
    split_ifs <;> simp [refAfterShown]
  · cases event with
    | ok message => exact (d.handleText_ref true message).trans (if_pos rfl)
    | system message => exact (d.handleText_ref false message).trans (if_neg (by decide))
    | _ => rfl
  · rfl

theorem handleAll_ref (str : ValueError → PyStr) (token : PyStr) (sourceSocket : Option ℕ)
    (shown : List Shown) : (d.handleAll str token sourceSocket shown).activeChannelRef =
      shown.foldl refAfterShown d.activeChannelRef := by
  induction shown generalizing d with
  | nil => rfl
  | cons m shown ih =>
    show ((d.handleGatewayEvent token sourceSocket (browserEvent str m)).handleAll str token
      sourceSocket shown).activeChannelRef = _
    rw [ih, handleGatewayEvent_ref, List.foldl_cons]

end Dashboard

/-! ## What a session shows -/

/-- The session shows what makes of the reference what the frames do. -/
def ShowsAs (x y : Session) (frames : List Frame) : Prop :=
  ∃ new, y.shown = x.shown ++ new ∧
    ∀ ref, new.foldl refAfterShown ref = frames.foldl refAfterFrame ref

theorem ShowsAs.nothing {frames : List Frame} (hshown : y.shown = x.shown)
    (h : ∀ ref, frames.foldl refAfterFrame ref = ref) : ShowsAs x y frames :=
  ⟨[], by rw [hshown, List.append_nil], fun ref => (h ref).symm⟩

theorem ShowsAs.one {frames : List Frame} {m : Shown} (hshown : y.shown = x.shown ++ [m])
    (h : ∀ ref, refAfterShown ref m = frames.foldl refAfterFrame ref) : ShowsAs x y frames :=
  ⟨[m], hshown, h⟩

theorem save_showsAs {z : Session} (hz : z.shown = x.shown) (index : ℕ)
    (tx : Gateway.Transaction) (own : Bool) {event : Gateway.GatewayEvent}
    (hframe : ∀ ref, refAfterFrame ref frame = ref)
    (hevent : ∀ ref, refAfterShown ref (.event event) = ref) :
    ShowsAs x (z.save index tx own event).1 [frame] := by
  unfold Session.save
  cases tx.commit with
  | none => exact .nothing hz hframe
  | some db =>
    refine .one (m := .event event) ?_ fun ref => (hevent ref).trans (hframe ref).symm
    show z.shown ++ _ = _
    rw [hz]

theorem gatewayEvent_ok (h : frame.type = ServerMsgType.ok.toByte) :
    Gateway.gatewayEvent frame = .ok (.ok (decodeReplace frame.payload)) := by
  rw [Gateway.gatewayEvent, h, ServerMsgType.ofByte_toByte]

/-- **What a frame does to the reference, it does through the event that is shown.** -/
theorem pumpCoreToWs_shown (active : PyStr → ℕ) (db : Gateway.Database) (x : Session)
    (frame : Frame) : ShowsAs x (x.pumpCoreToWs active db frame).1 [frame] := by
  by_cases htype : frame.type = ServerMsgType.ok.toByte
  · have hframe : ∀ ref, refAfterFrame ref frame = refAfterOk ref (decodeReplace frame.payload) :=
      fun ref => if_pos htype
    unfold Session.pumpCoreToWs
    rw [gatewayEvent_ok htype]
    simp only
    split_ifs with hsent
    · have hkeep : ∀ ref, refAfterOk ref (decodeReplace frame.payload) = ref := fun ref => by
        rw [hsent, refAfterOk, if_neg (by decide), if_neg (by decide)]
      split
      · exact .one rfl fun ref => (hframe ref).symm
      · exact save_showsAs rfl _ _ _ (fun ref => (hframe ref).trans (hkeep ref)) hkeep
    · exact .one rfl fun ref => (hframe ref).symm
  · have hframe : ∀ ref, refAfterFrame ref frame = ref := fun ref => if_neg htype
    unfold Session.pumpCoreToWs
    simp only
    split
    · exact .nothing rfl hframe
    · next event hevent =>
      have hkeep : ∀ ref, refAfterShown ref (.event event) = ref := fun ref => by
        cases event with
        | ok message => exact absurd (Gateway.gatewayEvent_of hevent).1 htype
        | _ => rfl
      have hshow : ∀ ref, refAfterShown ref (.event event) =
          [frame].foldl refAfterFrame ref := fun ref => (hkeep ref).trans (hframe ref).symm
      split
      · split_ifs
        · exact save_showsAs rfl _ _ _ hframe hkeep
        · exact .one rfl hshow
      · split_ifs
        · exact save_showsAs rfl _ _ _ hframe hkeep
        · exact .one rfl hshow
      · exact absurd (Gateway.gatewayEvent_of hevent).1 htype
      · exact .one rfl hshow
      · exact .one rfl hshow

theorem pumpWsToCore_shown (db : Gateway.Database) (x : Session)
    (loaded : Except ValueError Gateway.Json) : ShowsAs x (x.pumpWsToCore db loaded).1 [] := by
  have hsend : ∀ {z : Session} {type : ClientMsgType} {payload : Bytes}
      {dm : Option (PyStr × PyStr)}, z.shown = x.shown →
      ShowsAs x (z.coreSend type payload dm) [] := by
    intro z type payload dm hz
    unfold Session.coreSend
    split
    · exact .nothing hz fun _ => rfl
    · exact .nothing hz fun _ => rfl
  unfold Session.pumpWsToCore
  split
  · exact .one rfl fun _ => rfl
  · split
    · exact .one rfl fun _ => rfl
    · next type payload _ =>
      cases type with
      | join | switch =>
        simp only
        split
        · exact .nothing rfl fun _ => rfl
        · exact hsend rfl
      | _ => exact hsend rfl
  · exact .nothing rfl fun _ => rfl

/-- The messages make of the reference what the frames do that were read behind the first one. -/
structure RefOk (x : Session) : Prop where
  shown : ∀ ref, x.shown.foldl refAfterShown ref = x.reads.tail.foldl refAfterFrame ref
  started : x.reading = true ∨ x.writing = true → x.reads ≠ []

theorem RefOk.showsAs {frames : List Frame} (hx : RefOk x) (h : ShowsAs x y frames)
    (hreads : y.reads = x.reads ++ frames)
    (hstarted : x.reading = true ∨ x.writing = true) : RefOk y := by
  obtain ⟨new, hshown, hnew⟩ := h
  have hne := hx.started hstarted
  refine ⟨fun ref => ?_, fun _ hnil => ?_⟩
  · rw [hshown, List.foldl_append, hx.shown, hnew, hreads, List.tail_append_of_ne_nil hne,
      List.foldl_append]
  · rw [hreads] at hnil
    exact hne (List.append_eq_nil_iff.mp hnil).1

theorem RefOk.step {t : State} {e : Gateway.Event} (hr : Gateway.Reachable admits s)
    (hs : ∀ k x, s.sessions k = some x → RefOk x) (h : Gateway.Step s e t)
    (hy : t.sessions k = some y) : RefOk y := by
  cases h.becomes hy with
  | idle hx => exact hs k y hx
  | connect _ _ _ => exact ⟨fun _ => rfl, fun h => by rcases h with h | h <;> cases h⟩
  | @registered x frame hx hphase _ =>
    have hfresh := (Gateway.sessionOk hr hx).fresh hphase
    rw [hfresh]
    unfold Session.registered
    simp only
    split_ifs
    · exact ⟨fun _ => rfl, fun _ => List.cons_ne_nil _ _⟩
    · exact ⟨fun _ => rfl, fun _ => List.cons_ne_nil _ _⟩
  | abandoned hx hphase _ _ =>
    rw [(Gateway.sessionOk hr hx).fresh hphase]
    exact ⟨fun _ => rfl, fun _ => List.cons_ne_nil _ _⟩
  | @read x frame hx _ hreading _ =>
    have hreads := Session.pumpCoreToWs_reads s.active s.db x frame
    exact (hs k x hx).showsAs (pumpCoreToWs_shown ..) hreads.reads (.inl hreading)
  | @command x loaded hx _ hwriting =>
    have hwrites := Session.pumpWsToCore_writes s.db x loaded
    exact (hs k x hx).showsAs (pumpWsToCore_shown ..)
      (hwrites.reads.trans (List.append_nil _).symm) (.inr hwriting)
  | @finish x cancelled hx =>
    refine ⟨(hs k x hx).shown, fun h => (hs k x hx).started ?_⟩
    exact h.imp Bool.and_elim_left Bool.and_elim_left
  | halt hx hreading => exact ⟨(hs k _ hx).shown, fun _ => (hs k _ hx).started (.inl hreading)⟩

theorem refOk (h : Gateway.Reachable admits s) (hx : s.sessions k = some x) : RefOk x := by
  refine Transition.Reachable.invariant
    (P := fun s => ∀ k x, s.sessions k = some x → RefOk x) ?_ ?_ h k x hx
  · rintro s ⟨-, hnone, -⟩ k x hx
    rw [hnone] at hx
    cases hx
  · rintro s t hr hs ⟨e, -, hst⟩ k y hy
    exact RefOk.step hr hs hst hy

/-! ## The commands -/

theorem refAfterFrame_of_plain (h : Core.Plain frame) (ref : PyStr) :
    refAfterFrame ref frame = ref := by
  unfold refAfterFrame
  split_ifs with htype
  · have htext := h htype
    simp only [Core.plainTexts, List.mem_cons, List.not_mem_nil, or_false] at htext
    have hkeep : ∀ text ∈ Core.plainTexts, isChannelMessage (decodeReplace text) = false ∧
        decodeReplace text ≠ py "left channel" := by decide
    obtain ⟨hchannel, hleft⟩ := hkeep frame.payload (h htype)
    rw [refAfterOk, hchannel, if_neg Bool.false_ne_true, if_neg hleft]
  · rfl

theorem foldl_refAfterFrame_of_plain {frames : List Frame} (h : ∀ f ∈ frames, Core.Plain f)
    (ref : PyStr) : frames.foldl refAfterFrame ref = ref := by
  induction frames with
  | nil => rfl
  | cons f frames ih =>
    rw [List.foldl_cons, refAfterFrame_of_plain (h f List.mem_cons_self)]
    exact ih fun f hf => h f (List.mem_cons_of_mem _ hf)

/-- The dashboard finds the name behind the first blank. -/
theorem refAfterFrame_entered {word name : Bytes} (hname : Core.ValidName name)
    (hword : word ∈ [ascii "joined ", ascii "switched "]) (ref : PyStr) :
    refAfterFrame ref (Core.okText (word ++ name)) = asText name := by
  have hascii : ∀ w ∈ [ascii "joined ", ascii "switched "], Gateway.IsAscii w := by
    decide +kernel
  have hpayload : decodeReplace (word ++ name) = asText word ++ asText name := by
    rw [decodeReplace_ascii, List.map_append]
    · rfl
    · intro b hb
      rcases List.mem_append.mp hb with hb | hb
      · exact hascii word hword b hb
      · exact Gateway.isAscii_of_validName hname b hb
  have hframe : refAfterFrame ref (Core.okText (word ++ name)) =
      refAfterOk ref (decodeReplace (word ++ name)) := if_pos rfl
  rw [hframe, hpayload]
  simp only [List.mem_cons, List.not_mem_nil, or_false] at hword
  rcases hword with rfl | rfl <;> rfl

theorem refAfterFrame_left (ref : PyStr) :
    refAfterFrame ref (Core.okText (ascii "left channel")) = [] := by
  have hframe : refAfterFrame ref (Core.okText (ascii "left channel")) =
      refAfterOk ref (py "left channel") := rfl
  rw [hframe, refAfterOk, if_neg (by decide), if_pos rfl]

/-- **The frames change the reference as the commands do they answer.** -/
theorem foldl_refAfterFrame_of_told {frames : List Frame} {changes : List ChannelChange}
    (h : Core.Told frames changes) (ref : PyStr) :
    frames.foldl refAfterFrame ref = changes.foldl refAfterChange ref := by
  induction h with
  | nil => rfl
  | @turn frames new changes change _ hannounces ih =>
    rw [List.foldl_append, List.foldl_append, ih]
    cases change with
    | none => exact foldl_refAfterFrame_of_plain hannounces _
    | some change =>
      cases change with
      | enter name =>
        obtain ⟨hvalid, word, hword, rfl⟩ := hannounces
        exact refAfterFrame_entered hvalid hword _
      | leave name =>
        rw [show new = [Core.okText (ascii "left channel")] from hannounces]
        exact refAfterFrame_left (changes.foldl refAfterChange ref)

/-! ## Both folds -/

/-- The channel that was entered last, and the channels left since then. -/
def sinceEntered (changes : List ChannelChange) : Option Bytes × List Bytes :=
  changes.foldl (fun since change =>
    match change with
    | .enter name => (some name, [])
    | .leave name => (since.1, since.2 ++ [name])) (none, [])

theorem sinceEntered_enter (changes : List ChannelChange) (name : Bytes) :
    sinceEntered (changes ++ [.enter name]) = (some name, []) := by
  rw [sinceEntered, List.foldl_append]
  rfl

theorem sinceEntered_leave (changes : List ChannelChange) (name : Bytes) :
    sinceEntered (changes ++ [.leave name]) =
      ((sinceEntered changes).1, (sinceEntered changes).2 ++ [name]) := by
  rw [sinceEntered, List.foldl_append]
  rfl

/-- The core is in the channel entered last, unless it was left. -/
theorem foldl_apply_eq (changes : List ChannelChange) :
    changes.foldl ChannelChange.apply [] =
      match sinceEntered changes with
      | (some name, left) => if name ∈ left then [] else name
      | (none, _) => [] := by
  induction changes using List.reverseRecOn with
  | nil => rfl
  | append_singleton changes change ih =>
    rw [List.foldl_append, List.foldl_cons, List.foldl_nil, ih]
    cases change with
    | enter name =>
      rw [sinceEntered_enter]
      exact (if_neg List.not_mem_nil).symm
    | leave name =>
      rw [sinceEntered_leave]
      rcases sinceEntered changes with ⟨_ | entered, left⟩
      · exact ite_self _
      · simp only [List.mem_append, List.mem_singleton, ChannelChange.apply]
        by_cases hleft : entered ∈ left
        · simp only [hleft, true_or, if_true, ite_self]
        · simp only [hleft, false_or, if_false]

/-- The dashboard is in the channel entered last, unless some channel was left. -/
theorem foldl_refAfterChange_eq (ref : PyStr) (changes : List ChannelChange) :
    changes.foldl refAfterChange ref =
      match sinceEntered changes with
      | (some name, left) => if left = [] then asText name else []
      | (none, left) => if left = [] then ref else [] := by
  induction changes using List.reverseRecOn with
  | nil => rfl
  | append_singleton changes change ih =>
    rw [List.foldl_append, List.foldl_cons, List.foldl_nil, ih]
    cases change with
    | enter name =>
      rw [sinceEntered_enter]
      exact (if_pos rfl).symm
    | leave name =>
      rw [sinceEntered_leave]
      have hne : (sinceEntered changes).2 ++ [name] ≠ [] := by simp
      rcases hsince : sinceEntered changes with ⟨_ | entered, left⟩ <;> rw [hsince] at hne <;>
        exact (if_neg hne).symm

/-- Since a channel was entered last, none was left, or that one was; if none was entered yet, the
dashboard began without one, or one was left. -/
def LeftAsEntered (ref : PyStr) (changes : List ChannelChange) : Prop :=
  match sinceEntered changes with
  | (some name, left) => left = [] ∨ name ∈ left
  | (none, left) => ref = [] ∨ left ≠ []

instance (ref : PyStr) (changes : List ChannelChange) : Decidable (LeftAsEntered ref changes) := by
  unfold LeftAsEntered
  split <;> infer_instance

theorem asText_eq_nil {name : Bytes} : asText name = [] ↔ name = [] := List.map_eq_nil_iff

theorem sinceEntered_mem {changes : List ChannelChange} {name : Bytes} {left : List Bytes}
    (h : sinceEntered changes = (some name, left)) : .enter name ∈ changes := by
  induction changes using List.reverseRecOn generalizing left with
  | nil => cases h
  | append_singleton changes change ih =>
    cases change with
    | enter name' =>
      rw [sinceEntered_enter] at h
      obtain ⟨hname, -⟩ := Prod.mk.inj h
      rw [Option.some.inj hname]
      exact List.mem_append_right _ (List.mem_singleton_self _)
    | leave name' =>
      rw [sinceEntered_leave] at h
      obtain ⟨hname, -⟩ := Prod.mk.inj h
      exact List.mem_append_left _ (ih (Prod.ext hname rfl))

theorem folds_agree_iff {ref : PyStr} {changes : List ChannelChange}
    (hvalid : ∀ name, .enter name ∈ changes → name ≠ []) :
    changes.foldl refAfterChange ref = asText (changes.foldl ChannelChange.apply []) ↔
      LeftAsEntered ref changes := by
  rw [foldl_refAfterChange_eq, foldl_apply_eq, LeftAsEntered]
  rcases hsince : sinceEntered changes with ⟨_ | name, left⟩
  · show (if left = [] then ref else []) = [] ↔ _
    split_ifs with hleft
    · simp [hleft]
    · simp [hleft]
  · have hne := hvalid name (sinceEntered_mem hsince)
    show (if left = [] then asText name else []) = asText (if name ∈ left then [] else name) ↔ _
    by_cases hleft : left = []
    · simp [hleft]
    · rw [if_neg hleft]
      by_cases hmem : name ∈ left
      · simp only [hmem, if_true, or_true, iff_true]
        rfl
      · simp only [hmem, if_false, hleft, or_false, iff_false]
        exact fun heq => hne (asText_eq_nil.mp heq.symm)

theorem enter_ne_nil {frames : List Frame} {changes : List ChannelChange}
    (h : Core.Told frames changes) {name : Bytes} (hmem : .enter name ∈ changes) : name ≠ [] := by
  induction h with
  | nil => cases hmem
  | @turn frames new changes change _ hannounces ih =>
    rcases List.mem_append.mp hmem with hmem | hmem
    · exact ih hmem
    · obtain rfl := Option.mem_toList.mp hmem
      exact hannounces.1.ne_nil

/-- **When the dashboard follows the core.**  In every reachable state, for a session whose
connection is open and that has read all frames of the core: when `handleGatewayEvent` has processed
all messages of the session, in a dashboard in any state before, `activeChannelRef` is the active
channel of the client if and only if since the last accepted `JOIN` or `SWITCH` no channel was left,
or the one entered was. -/
theorem activeChannelRef_iff (hs : Gateway.Reachable admits s) (hx : s.sessions k = some x)
    (hreads : x.reads = Core.enqueuedTo k s.core.trace) {i : Core.Slot}
    (hl : (s.core.clients i).Live) (hconn : (s.core.clients i).conn = k) (d : Dashboard)
    (str : ValueError → PyStr) (token : PyStr) (sourceSocket : Option ℕ) :
    (d.handleAll str token sourceSocket x.shown).activeChannelRef =
        asText (s.core.clients i).activeChannel ↔
      LeftAsEntered d.activeChannelRef (channelChanges k s.core.trace) := by
  have hcore := Gateway.Reachable.core hs
  obtain ⟨hactive, htold⟩ := Core.channelOk hcore i hl
  have hfirst := (Core.greetOk hcore i hl).first
  rw [hconn] at hactive htold hfirst
  have htail : ∀ ref, x.reads.tail.foldl refAfterFrame ref = x.reads.foldl refAfterFrame ref := by
    intro ref
    cases hcons : x.reads with
    | nil => rfl
    | cons f frames =>
      rw [← hreads, hcons] at hfirst
      rw [List.tail_cons, List.foldl_cons, refAfterFrame_of_plain (hfirst f rfl)]
  rw [d.handleAll_ref, (refOk hs hx).shown, htail, hreads, foldl_refAfterFrame_of_told htold, hactive]
  exact folds_agree_iff fun name => enter_ne_nil htold

/-! ## Two runs -/

open Gateway (Op alice aliceOnline start)

/-- `alice` sends a command about a channel, and reads the answer. -/
def onChannel (type : ClientMsgType) (word channel : String) : List Op :=
  [.command 1 (.ok (.object [(py "type", .string (py word)),
      (py "channel", .string (py channel))])),
    .deliver 0 ⟨type.toByte, stringField (ascii channel)⟩, .flush 0, .read 1]

/-- `alice` joins `lobby` and then `room`, and leaves one of them. -/
def twoChannels (left : String) : List Op :=
  aliceOnline ++ onChannel .join "join" "lobby" ++ onChannel .join "join" "room" ++
    onChannel .leave "leave" left

/-- The dashboard of `alice`, connected. -/
def aliceDashboard : Dashboard :=
  ((Dashboard.initial.startSession (py "token") alice.name).connect (py "token")).onopen 0

theorem activeChannelRef_iff_room : ∃ x, (start.run (twoChannels "room")).sessions 1 = some x ∧
    (aliceDashboard.handleAll (fun _ => []) (py "token") (some 0) x.shown).activeChannelRef =
      asText ((start.run (twoChannels "room")).core.clients 0).activeChannel := by
  have hreach : Gateway.Reachable (fun _ _ => True) (start.run (twoChannels "room")) :=
    Gateway.reachable_of_legal (by decide +kernel)
  obtain ⟨x, hx, hreads⟩ : ∃ x ∈ (start.run (twoChannels "room")).sessions 1,
      x.reads = Core.enqueuedTo 1 (start.run (twoChannels "room")).core.trace := by decide +kernel
  exact ⟨x, hx, (activeChannelRef_iff hreach hx hreads (by decide +kernel) (by decide +kernel)
    aliceDashboard _ _ _).mpr (by decide +kernel)⟩

/-- `alice` leaves `lobby`: her active channel is still `room`, and the dashboard shows none. -/
theorem ref_cleared_by_other_leave : ∃ s x, Gateway.Reachable (fun _ _ => True) s ∧
    s.sessions 1 = some x ∧ x.reads = Core.enqueuedTo 1 s.core.trace ∧
    (s.core.clients 0).Live ∧ (s.core.clients 0).conn = 1 ∧
    (s.core.clients 0).activeChannel = ascii "room" ∧
    (aliceDashboard.handleAll (fun _ => []) (py "token") (some 0) x.shown).activeChannelRef = [] := by
  have hreach : Gateway.Reachable (fun _ _ => True) (start.run (twoChannels "lobby")) :=
    Gateway.reachable_of_legal (by decide +kernel)
  obtain ⟨x, hx, hreads, href⟩ : ∃ x ∈ (start.run (twoChannels "lobby")).sessions 1,
      x.reads = Core.enqueuedTo 1 (start.run (twoChannels "lobby")).core.trace ∧
      (aliceDashboard.handleAll (fun _ => []) (py "token") (some 0)
        x.shown).activeChannelRef = [] := by decide +kernel
  exact ⟨_, x, hreach, hx, hreads, by decide +kernel, by decide +kernel, by decide +kernel, href⟩

end Frontend
end ChannelWire
