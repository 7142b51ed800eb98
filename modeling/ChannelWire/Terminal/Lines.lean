import Mathlib.Data.List.Infix
import ChannelWire.Core.OutputStream
import ChannelWire.Gateway.Decoding
import ChannelWire.Protocol.Readers

/-!
# What the terminal client prints

`connect_registered` waits for the answer to its `HELLO`, and `run` of `tools/cw_client.py` prints
the line of `format_frame` for each frame that follows.  It catches what the socket raises, but not
a `ValueError`: the first frame that `format_frame` cannot read raises.  What is typed meanwhile, and
how the connection ends, is left open here.

`format_frame` reads the frames that `gateway_event` reads, and prints what its event says
(`shownAs_of_event`).  In every state of the core the client has printed the events of its
connection, in order, up to the first text that is not UTF-8 (`terminal_prints_the_log`).
-/

namespace ChannelWire
namespace Terminal

open Gateway (PyStr py ValueError GatewayEvent gatewayEvent decodeStrings friendlyError splitlines
  RelaysUtf8 Decodes IsAscii asText)
open Utf8

/-! ## The terminal client -/

/-- `TYPE_NAMES`. -/
def typeName : ServerMsgType → PyStr
  | .ok => py "OK"
  | .error => py "ERROR"
  | .chat => py "CHAT"
  | .dmRecv => py "DM_RECV"
  | .system => py "SYSTEM"
  | .whoResp => py "WHO_RESP"
  | .listResp => py "LIST_RESP"
  | .statsResp => py "STATS_RESP"

/-- A digit of `hex`. -/
def hexDigit (n : ℕ) : CodePoint := Fin.ofNat _ (if n < 10 then 0x30 + n else 0x57 + n)

/-- `hex`. -/
def hex (payload : Bytes) : PyStr :=
  payload.flatMap fun b => [hexDigit (b.toNat / 16), hexDigit (b.toNat % 16)]

/-- A text behind the name of its type; an empty one is left out with the colon. -/
def titled (name text : PyStr) : PyStr := if text = [] then name else name ++ py ": " ++ text

/-- The line of a `CHAT`. -/
def chatLine (channel sender text : PyStr) : PyStr :=
  py "[" ++ channel ++ py "] " ++ sender ++ py ": " ++ text

/-- The line of a `DM_RECV`. -/
def dmLine (sender text : PyStr) : PyStr := py "[dm] " ++ sender ++ py ": " ++ text

/-- The line of a frame of no known type. -/
def unknownLine (type : UInt8) (payload : Bytes) : PyStr :=
  py "TYPE_" ++ JsonText.numeral type.toNat ++ py ": " ++ hex payload

/-- `format_frame`. -/
def formatFrame (frame : Frame) : Except ValueError PyStr :=
  match ServerMsgType.ofByte frame.type with
  | some .chat =>
    match decodeStrings frame.payload with
    | .error e => .error e
    | .ok [channel, sender, text] => .ok (chatLine channel sender text)
    | .ok _ => .error .unpack
  | some .dmRecv =>
    match decodeStrings frame.payload with
    | .error e => .error e
    | .ok [sender, text] => .ok (dmLine sender text)
    | .ok _ => .error .unpack
  | some type => .ok (titled (typeName type) (decodeReplace frame.payload))
  | none => .ok (unknownLine frame.type frame.payload)

/-- The loop of `run` over the frames that arrive: what is printed, and what was raised. -/
def printFrames : List Frame → List PyStr × Option ValueError
  | [] => ([], none)
  | frame :: frames =>
    match formatFrame frame with
    | .error e => ([], some e)
    | .ok line => (line :: (printFrames frames).1, (printFrames frames).2)

/-- What `connect_registered` and `run` make of the frames in what has arrived; `none` is a
registration that failed. -/
def run (stream : Bytes) : Option (List PyStr × Option ValueError) :=
  match readFrame stream with
  | none => some ([], none)
  | some (response, stream) =>
    if response.type = ServerMsgType.ok.toByte then
      some (printFrames (readMany readFrame stream.length stream))
    else none

/-! ## Lines and events -/

/-- The line says what the event says.  An error stands in it as the core gave it, a list or the
counters as the text they were read from. -/
def ShownAs (line : PyStr) : GatewayEvent → Prop
  | .chat channel sender text => line = chatLine channel sender text
  | .dm sender text => line = dmLine sender text
  | .who users => ∃ text, users = splitlines text ∧ line = titled (py "WHO_RESP") text
  | .channels channels =>
    ∃ text, channels = splitlines text ∧ line = titled (py "LIST_RESP") text
  | .ok message => line = titled (py "OK") message
  | .error message => ∃ text, message = friendlyError text ∧ line = titled (py "ERROR") text
  | .system message => line = titled (py "SYSTEM") message
  | .coreStats stats =>
    ∃ text, JsonText.loads text = some (.object stats) ∧ line = titled (py "STATS_RESP") text
  | .coreStatsRaw raw => line = titled (py "STATS_RESP") raw
  | .raw type payload => line = unknownLine type payload

/-- **The terminal prints what the gateway tells.** -/
theorem shownAs_of_event {frame : Frame} {event : GatewayEvent}
    (hstats : frame.type = ServerMsgType.statsResp.toByte → IsAscii frame.payload)
    (h : gatewayEvent frame = .ok event) :
    ∃ line, formatFrame frame = .ok line ∧ ShownAs line event := by
  unfold gatewayEvent at h
  unfold formatFrame
  cases htype : ServerMsgType.ofByte frame.type with
  | none =>
    rw [htype] at h
    obtain rfl := Except.ok.inj h
    exact ⟨_, rfl, rfl⟩
  | some type =>
    rw [htype] at h
    cases type with
    | chat =>
      simp only at h ⊢
      -- both look at the strings of the payload
      generalize decodeStrings frame.payload = decoded at h ⊢
      split at h
      · cases h
      · obtain rfl := Except.ok.inj h
        exact ⟨_, rfl, rfl⟩
      · cases h
    | dmRecv =>
      simp only at h ⊢
      generalize decodeStrings frame.payload = decoded at h ⊢
      split at h
      · cases h
      · obtain rfl := Except.ok.inj h
        exact ⟨_, rfl, rfl⟩
      · cases h
    | ok | system =>
      obtain rfl := Except.ok.inj h
      exact ⟨_, rfl, rfl⟩
    | whoResp | listResp | error =>
      obtain rfl := Except.ok.inj h
      exact ⟨_, rfl, _, rfl, rfl⟩
    | statsResp =>
      have hascii := hstats (ServerMsgType.ofByte_eq_some.mp htype)
      have hreplace : decodeReplace frame.payload = asText frame.payload :=
        decodeReplace_ascii hascii
      simp only [Gateway.coreStatsEvent, Gateway.decode_ascii hascii] at h
      refine ⟨_, rfl, ?_⟩
      rw [hreplace]
      split at h
      · obtain rfl := Except.ok.inj h
        rw [hreplace]
        rfl
      · next hloads =>
        obtain rfl := Except.ok.inj h
        exact ⟨_, hloads, rfl⟩
      · cases h

section Produced

variable {s : Core.Server} {k : ℕ} {frame : Frame}

theorem isAscii_of_statsResp (h : Core.Produced s k frame)
    (htype : frame.type = ServerMsgType.statsResp.toByte) : IsAscii frame.payload := by
  cases h with
  | notice text hnotice =>
    rw [ServerMsgType.toByte_inj.mp htype] at hnotice
    exact absurd hnotice (by decide)
  | stats => exact Gateway.isAscii_statsText s
  | chat | dm | who | list => simp only [ServerMsgType.toByte_inj, reduceCtorEq] at htype

/-- A `CHAT` or `DM_RECV` that is printed is decoded by the gateway as well. -/
theorem decodes_of_formatFrame {type : ServerMsgType} {payload : Bytes} {line : PyStr}
    (htype : type = .chat ∨ type = .dmRecv)
    (h : formatFrame ⟨type.toByte, payload⟩ = .ok line) : Decodes s k ⟨type.toByte, payload⟩ := by
  unfold formatFrame at h
  rw [ServerMsgType.ofByte_toByte] at h
  rcases htype with rfl | rfl
  · simp only at h
    split at h
    · cases h
    · next channel sender text hdecode =>
      have hevent : gatewayEvent ⟨ServerMsgType.chat.toByte, payload⟩ =
          .ok (.chat channel sender text) := by
        simp only [gatewayEvent, ServerMsgType.ofByte_toByte, hdecode]
      exact .intro hevent (fun _ => ⟨_, _, _, rfl⟩) (fun h => by cases h) (fun h => by cases h)
        (fun h => by cases h) (fun h => by cases h)
    · cases h
  · simp only at h
    split at h
    · cases h
    · next sender text hdecode =>
      have hevent : gatewayEvent ⟨ServerMsgType.dmRecv.toByte, payload⟩ =
          .ok (.dm sender text) := by
        simp only [gatewayEvent, ServerMsgType.ofByte_toByte, hdecode]
      exact .intro hevent (fun h => by cases h) (fun _ => ⟨_, _, rfl⟩) (fun h => by cases h)
        (fun h => by cases h) (fun h => by cases h)
    · cases h

/-- **What becomes of a frame of the core in the terminal.** -/
theorem formatFrame_ok_iff (hc : Core.ChannelsOk s) (hv : Core.NamesOk s)
    (h : Core.Produced s k frame) : (∃ line, formatFrame frame = .ok line) ↔ RelaysUtf8 frame := by
  constructor
  · rintro ⟨line, hline⟩ hrelayed
    have hdecodes : Decodes s k frame := by
      obtain ⟨type, payload⟩ := frame
      rcases hrelayed with htype | htype
      · obtain rfl : type = _ := htype
        exact decodes_of_formatFrame (.inl rfl) hline
      · obtain rfl : type = _ := htype
        exact decodes_of_formatFrame (.inr rfl) hline
    exact (Gateway.decodes_iff_of_produced hc hv h).mp hdecodes hrelayed
  · intro hrelays
    obtain ⟨event, hevent⟩ := ((Gateway.decodes_iff_of_produced hc hv h).mpr hrelays).event
    obtain ⟨line, hline, -⟩ := shownAs_of_event (isAscii_of_statsResp h) hevent
    exact ⟨line, hline⟩

end Produced

/-! ## Runs -/

/-- Lines are printed up to the first frame for which `format_frame` raises. -/
theorem printFrames_spec {P : Frame → Prop} {frames : List Frame} (hP : ∀ f ∈ frames, P f) :
    List.Forall₂ (fun frame line => P frame ∧ formatFrame frame = .ok line)
        (frames.take (printFrames frames).1.length) (printFrames frames).1 ∧
      ((printFrames frames).2 = none → (printFrames frames).1.length = frames.length) ∧
      ∀ e, (printFrames frames).2 = some e → ∃ frame,
        frames[(printFrames frames).1.length]? = some frame ∧ formatFrame frame = .error e := by
  induction frames with
  | nil => exact ⟨.nil, fun _ => rfl, fun e he => by cases he⟩
  | cons frame frames ih =>
    obtain ⟨hlines, hall, hfail⟩ := ih fun f hf => hP f (List.mem_cons_of_mem frame hf)
    rw [printFrames]
    cases hline : formatFrame frame with
    | error e =>
      refine ⟨.nil, fun h => (by cases h), fun e' he => ⟨frame, rfl, ?_⟩⟩
      rw [hline, Option.some.inj he]
    | ok line =>
      exact ⟨.cons ⟨hP frame List.mem_cons_self, hline⟩ hlines,
        fun h => congrArg (· + 1) (hall h), hfail⟩

/-- What the client reads behind the answer to `HELLO`. -/
theorem run_eq {got : Bytes} {lines : List PyStr} {failure : Option ValueError}
    (h : run got = some (lines, failure)) :
    (lines, failure) = printFrames (readMany readFrame got.length got).tail := by
  have hsame : readFrame = coreRead := funext readFrame_eq_coreRead
  unfold run at h
  rw [hsame] at h ⊢
  rw [readMany_coreRead got (Nat.le_refl _)]
  rw [coreRead_eq] at h
  cases hhead : pyFraming.head got with
  | item response n =>
    rw [hhead] at h
    simp only at h
    split_ifs at h
    rw [readMany_coreRead _ (Nat.le_refl _)] at h
    rw [StreamDecoder.Decoder.parse_of_item hhead, List.tail_cons]
    exact (Option.some.inj h).symm
  | more | bad =>
    rw [hhead] at h
    rw [StreamDecoder.Decoder.parse_of_not_item fun x n hx => by rw [hhead] at hx; cases hx]
    exact (Option.some.inj h).symm

/-- **The terminal client prints the log of its connection.**  In every reachable state of the
core, with any other clients, let `got` be what has arrived of the bytes that were sent to
connection `k`.  The frames in `got` behind the answer to `HELLO` are the first that were enqueued
to `k`; the client prints a line for each, in order, that says what the gateway would tell a
browser of it.  It raises only at a frame with a text that is not UTF-8, for which the gateway raises
as well. -/
theorem terminal_prints_the_log {s : Core.Server} (h : Core.Reachable s) {k : ℕ} {got : Bytes}
    (hgot : got <+: Core.sentTo k s.trace) {lines : List PyStr} {failure : Option ValueError}
    (hrun : run got = some (lines, failure)) :
    ∃ frames, frames <+: (Core.enqueuedTo k s.trace).tail ∧
      frames = (readMany readFrame got.length got).tail ∧
      List.Forall₂ (fun frame line => ∃ event, gatewayEvent frame = .ok event ∧ ShownAs line event)
        (frames.take lines.length) lines ∧
      (failure = none → lines.length = frames.length) ∧
      (failure ≠ none → ∃ frame, frames[lines.length]? = some frame ∧ ¬ RelaysUtf8 frame ∧
        ∃ e, gatewayEvent frame = .error e) := by
  have houtput := Core.outputOk h.moveReachable
  have hread : readMany readFrame got.length got <+: Core.enqueuedTo k s.trace := by
    rw [funext readFrame_eq_coreRead, readMany_coreRead got (Nat.le_refl _)]
    refine StreamDecoder.Codec.parse_prefix (fun f hf => ?_) (hgot.trans (houtput.sent k))
    exact pyFraming_valid.mpr ((houtput.small k f hf).trans (by decide))
  have hproduced : ∀ frame ∈ (readMany readFrame got.length got).tail,
      ∃ t, Core.Reachable t ∧ Core.Produced t k frame := fun frame hframe =>
    Core.exists_produced h
      (Core.mem_trace_of_mem_enqueuedTo (hread.subset (List.mem_of_mem_tail hframe)))
  obtain ⟨hlines, hall, hfail⟩ := printFrames_spec hproduced
  obtain ⟨rfl, rfl⟩ := Prod.ext_iff.mp (run_eq hrun)
  have hrest := List.IsPrefix.drop hread 1
  rw [List.drop_one, List.drop_one] at hrest
  refine ⟨_, hrest, rfl, hlines.imp ?_, hall, fun hne => ?_⟩
  · rintro frame line ⟨⟨t, ht, hmade⟩, hline⟩
    have hc := Core.channelsOk ht.moveReachable
    have hv := Core.namesOk ht.moveReachable
    have hrelays := (formatFrame_ok_iff hc hv hmade).mp ⟨line, hline⟩
    obtain ⟨event, hevent⟩ := ((Gateway.decodes_iff_of_produced hc hv hmade).mpr hrelays).event
    obtain ⟨line', hline', hshown⟩ := shownAs_of_event (isAscii_of_statsResp hmade) hevent
    obtain rfl := Except.ok.inj (hline.symm.trans hline')
    exact ⟨event, hevent, hshown⟩
  · obtain ⟨e, he⟩ := Option.ne_none_iff_exists'.mp hne
    obtain ⟨frame, hframe, hraises⟩ := hfail e he
    obtain ⟨t, ht, hmade⟩ := hproduced frame (List.mem_of_getElem? hframe)
    have hnot : ¬ ∃ line, formatFrame frame = .ok line := by
      rintro ⟨line, hline⟩
      rw [hraises] at hline
      cases hline
    refine ⟨frame, hframe, fun hrelays => hnot ?_, ?_⟩
    · exact (formatFrame_ok_iff (Core.channelsOk ht.moveReachable)
        (Core.namesOk ht.moveReachable) hmade).mpr hrelays
    · cases hevent : gatewayEvent frame with
      | error e => exact ⟨e, rfl⟩
      | ok event =>
        obtain ⟨line, hline, -⟩ := shownAs_of_event (isAscii_of_statsResp hmade) hevent
        exact absurd ⟨line, hline⟩ hnot

/-- `bob` has been sent all that was enqueued for him. -/
def roomSent : Core.Server :=
  Core.writeToClient Core.roomWithText 1 [.took 4096, .took 4096, .took 4096]

theorem reachable_roomSent : Core.Reachable roomSent :=
  Core.reachable_roomWithText.trans (Relation.ReflTransGen.mono
    (fun _ _ => Core.ServeStep.step) _ _ (Core.writeToClient_steps (by decide +kernel)))

theorem terminal_prints_the_log_room : ∃ frames,
    frames <+: (Core.enqueuedTo 2 roomSent.trace).tail ∧
      List.Forall₂ (fun frame line => ∃ event, gatewayEvent frame = .ok event ∧ ShownAs line event)
        (frames.take 2) [py "OK: joined room", py "[room] alice: hello"] := by
  have hrun : run (Core.sentTo 2 roomSent.trace) =
      some ([py "OK: joined room", py "[room] alice: hello"], none) := by
    decide +kernel
  obtain ⟨frames, hframes, -, hlines, -⟩ :=
    terminal_prints_the_log reachable_roomSent List.prefix_rfl hrun
  exact ⟨frames, hframes, hlines⟩

end Terminal
end ChannelWire
