import ChannelWire.Core.Outputs
import ChannelWire.Gateway.Event

/-!
# Decoding what the core sends

`gateway_event` against the frames of `Core.Produced`.  What the core writes itself is ASCII, and
each of its lists, counters and notices is decoded to what it says.  The text of a `CHAT` or of a
`DM_RECV` is another matter: the core relays the bytes of a client as they are, and
`decode_strings` fails on those that are not UTF-8 (`gateway_decodes_iff`).
-/

namespace ChannelWire
namespace Gateway

open Utf8 JsonText

/-- A name of the core, as a text. -/
def asText (name : Bytes) : PyStr := name.map ofByte

/-- All bytes are ASCII. -/
def IsAscii (bytes : Bytes) : Prop := ∀ b ∈ bytes, b.toNat < 0x80

instance (bytes : Bytes) : Decidable (IsAscii bytes) := inferInstanceAs (Decidable (∀ b ∈ bytes, _))

/-- The bytes are the UTF-8 encoding of a text. -/
def IsUtf8 (bytes : Bytes) : Prop := ∃ s, encode s = some bytes

theorem decode_ascii {bytes : Bytes} (h : IsAscii bytes) : decode bytes = some (asText bytes) :=
  encode_eq_some_iff.mp (encode_map_ofByte h)

/-! ## Names -/

theorem toNat_of_isNameByte {b : UInt8} (h : isNameByte b = true) :
    0x2D ≤ b.toNat ∧ b.toNat ≤ 0x7A := by
  simp only [isNameByte, Bool.or_eq_true, Bool.and_eq_true, decide_eq_true_eq, beq_iff_eq,
    UInt8.le_iff_toNat_le, ← UInt8.toNat_inj] at h
  simp only [UInt8.reduceToNat] at h
  omega

/-- A nonempty text in one line. -/
def IsLine (s : PyStr) : Prop := s ≠ [] ∧ ∀ c ∈ s, isLineBreak c = false

section Names

variable {name : Bytes}

theorem isAscii_of_validName (h : Core.ValidName name) : IsAscii name := by
  intro b hb
  have hb' := toNat_of_isNameByte ((cwValidName_eq_true.mp h).2.2 b hb)
  omega

theorem isLine_of_validName (h : Core.ValidName name) : IsLine (asText name) := by
  refine ⟨fun hnil => h.ne_nil (List.map_eq_nil_iff.mp hnil), fun c hc => ?_⟩
  obtain ⟨b, hb, rfl⟩ := List.mem_map.mp hc
  have hb' := toNat_of_isNameByte ((cwValidName_eq_true.mp h).2.2 b hb)
  simp only [isLineBreak, val_ofByte, Bool.or_eq_false_iff, Bool.and_eq_false_iff,
    decide_eq_false_iff_not, beq_eq_false_iff_ne]
  omega

end Names

/-- A name that is empty or valid is ASCII. -/
theorem isAscii_username {s : Core.Server} (hv : Core.NamesOk s) (i : Core.Slot) :
    IsAscii (s.clients i).username := by
  by_cases hne : (s.clients i).username = []
  · rw [hne]
    exact fun b hb => absurd hb List.not_mem_nil
  · exact isAscii_of_validName (hv.valid i hne)

theorem isAscii_activeChannel {s : Core.Server} (hc : Core.ChannelsOk s) (i : Core.Slot) :
    IsAscii (s.clients i).activeChannel := by
  rcases (hc.clients i).active with hnil | ⟨idx, hch, -⟩
  · rw [hnil]
    exact fun b hb => absurd hb List.not_mem_nil
  · exact isAscii_of_validName (hc.valid _ (List.mem_of_getElem? hch))

/-! ## Lists of names -/

/-- Names, each behind a line feed. -/
def lines (names : List Bytes) : Bytes := names.flatMap fun name => 10 :: name

theorem appendLines_of_ne_nil {cap : ℕ} {used payload : Bytes} {names : List Bytes}
    (hne : used ≠ []) (h : Core.appendLines cap used names = some payload) :
    payload = used ++ lines names := by
  induction names generalizing used with
  | nil => rw [← Option.some.inj h, lines, List.flatMap_nil, List.append_nil]
  | cons name names ih =>
    rw [Core.appendLines] at h
    simp only [List.length_eq_zero_iff, hne, if_false] at h
    split_ifs at h
    rw [ih (List.append_ne_nil_of_left_ne_nil hne _) h, List.append_assoc]
    rfl

/-- `send_who` and `send_list` join the names by line feeds. -/
theorem appendLines_cons {cap : ℕ} {name payload : Bytes} {names : List Bytes} (hne : name ≠ [])
    (h : Core.appendLines cap [] (name :: names) = some payload) :
    payload = name ++ lines names := by
  rw [Core.appendLines] at h
  simp only [List.length_nil, if_true, List.nil_append] at h
  split_ifs at h
  exact appendLines_of_ne_nil hne h

/-- A text without line breaks is added to the current line. -/
theorem splitlinesLoop_append {text : PyStr} (h : ∀ c ∈ text, isLineBreak c = false)
    (line rest : PyStr) :
    splitlinesLoop line false (text ++ rest) = splitlinesLoop (line ++ text) false rest := by
  induction text generalizing line with
  | nil => rw [List.nil_append, List.append_nil]
  | cons c text ih =>
    rw [List.cons_append, splitlinesLoop, Bool.false_and, if_neg Bool.false_ne_true,
      if_neg (by rw [h c List.mem_cons_self]; exact Bool.false_ne_true),
      ih (fun d hd => h d (List.mem_cons_of_mem c hd)), List.append_assoc]
    rfl

theorem splitlinesLoop_lines {line : PyStr} (hline : line ≠ []) {names : List Bytes}
    (h : ∀ name ∈ names, IsLine (asText name)) :
    splitlinesLoop line false (asText (lines names)) = line :: names.map asText := by
  induction names generalizing line with
  | nil => exact if_neg hline
  | cons name names ih =>
    obtain ⟨hne, hbreaks⟩ := h name List.mem_cons_self
    have hlist : asText (lines (name :: names)) = 10 :: (asText name ++ asText (lines names)) := by
      rw [lines, List.flatMap_cons, asText, List.cons_append, List.map_cons, List.map_append]
      rfl
    have hbreak : isLineBreak 10 = true := by decide
    have hreturn : ((10 : CodePoint).val == 0xD) = false := by decide
    rw [hlist, splitlinesLoop, Bool.false_and, if_neg Bool.false_ne_true, if_pos hbreak, hreturn,
      splitlinesLoop_append hbreaks, List.nil_append,
      ih hne fun n hn => h n (List.mem_cons_of_mem name hn), List.map_cons]

/-- **The lines of a list of names are the names.** -/
theorem splitlines_appendLines {cap : ℕ} {payload : Bytes} {names : List Bytes}
    (hvalid : ∀ name ∈ names, Core.ValidName name)
    (h : Core.appendLines cap [] names = some payload) :
    splitlines (decodeReplace payload) = names.map asText := by
  cases names with
  | nil =>
    rw [← Option.some.inj h]
    rfl
  | cons name names =>
    have hname := hvalid name List.mem_cons_self
    obtain ⟨hne, hbreaks⟩ := isLine_of_validName hname
    have hpayload := appendLines_cons hname.ne_nil h
    have hascii : IsAscii payload := by
      rw [hpayload]
      intro b hb
      rcases List.mem_append.mp hb with hb | hb
      · exact isAscii_of_validName hname b hb
      · obtain ⟨n, hn, hb⟩ := List.mem_flatMap.mp hb
        rcases List.mem_cons.mp hb with rfl | hb
        · decide
        · exact isAscii_of_validName (hvalid n (List.mem_cons_of_mem name hn)) b hb
    have hlist : payload.map ofByte = asText name ++ asText (lines names) := by
      rw [hpayload, List.map_append]
      rfl
    rw [decodeReplace_ascii hascii, hlist, splitlines, splitlinesLoop_append hbreaks,
      List.nil_append, splitlinesLoop_lines hne fun n hn =>
        isLine_of_validName (hvalid n (List.mem_cons_of_mem name hn)), List.map_cons]

/-! ## Counters -/

/-- The counters that `send_stats` writes, under their names. -/
def counters (s : Core.Server) : List (PyStr × ℕ) :=
  [(text "current_connections", s.stats.currentConnections),
    (text "registered_clients", (Core.slots.filter fun i =>
      (s.clients i).Live ∧ (s.clients i).registered = true).length),
    (text "total_connections", s.stats.totalConnections),
    (text "channels", s.channels.length),
    (text "channel_messages", s.stats.channelMessages),
    (text "direct_messages", s.stats.directMessages),
    (text "malformed_frames", s.stats.malformedFrames),
    (text "queue_disconnects", s.stats.queueDisconnects),
    (text "max_queue_bytes", s.maxQueueBytes)]

theorem toNat_lt_of_isDigit {c : Char} (h : c.isDigit = true) : c.toNat < 0x80 := by
  have hmax := (Char.isDigit_iff_toNat.mp h).2
  have h9 : '9'.toNat = 57 := rfl
  omega

theorem asText_decimal (n : ℕ) : asText (Core.decimal n) = numeral n := by
  rw [asText, Core.decimal, List.map_map, numeral]
  refine List.map_congr_left fun c hc => Fin.ext ?_
  have hlt := toNat_lt_of_isDigit (Nat.isDigit_of_mem_toDigits (by decide) (by decide) hc)
  show (ofByte (UInt8.ofNat c.toNat)).val = c.toNat % 0x110000
  rw [val_ofByte, toNat_ofNat_of_lt (by omega), Nat.mod_eq_of_lt (by omega)]

theorem isAscii_decimal (n : ℕ) : IsAscii (Core.decimal n) := by
  intro b hb
  obtain ⟨c, hc, rfl⟩ := List.mem_map.mp hb
  have hlt := toNat_lt_of_isDigit (Nat.isDigit_of_mem_toDigits (by decide) (by decide) hc)
  rw [toNat_ofNat_of_lt (by omega)]
  exact hlt

theorem IsAscii.append {a b : Bytes} (ha : IsAscii a) (hb : IsAscii b) : IsAscii (a ++ b) :=
  fun c hc => (List.mem_append.mp hc).elim (ha c) (hb c)

theorem isAscii_statsText (s : Core.Server) : IsAscii (Core.statsText s) := by
  unfold Core.statsText
  refine .append (.append (.append (.append (.append (.append (.append (.append (.append (.append
    (.append (.append (.append (.append (.append (.append (.append (.append ?_ ?_) ?_) ?_) ?_) ?_)
    ?_) ?_) ?_) ?_) ?_) ?_) ?_) ?_) ?_) ?_) ?_) ?_) ?_ <;>
    first | exact isAscii_decimal _ | decide +kernel

/-- What stands in front of a counter. -/
def label (c : Char) (key : String) : PyStr := ch c :: quoted (text key) ++ [ch ':']

/-- One more counter. -/
theorem asText_counter {before key : Bytes} {b l : PyStr} (hbefore : asText before = b)
    (hkey : asText key = l) (n : ℕ) :
    asText (before ++ key ++ Core.decimal n) = b ++ l ++ numeral n := by
  rw [← hbefore, ← hkey, ← asText_decimal]
  simp only [asText, List.map_append]

/-- The text of the counters is a JSON object. -/
theorem asText_statsText (s : Core.Server) :
    asText (Core.statsText s) = countersText (counters s) := by
  have h1 : asText (ascii "\x7b\"current_connections\":") = label '\x7b' "current_connections" := by
    decide
  have h2 : asText (ascii ",\"registered_clients\":") = label ',' "registered_clients" := by decide
  have h3 : asText (ascii ",\"total_connections\":") = label ',' "total_connections" := by decide
  have h4 : asText (ascii ",\"channels\":") = label ',' "channels" := by decide
  have h5 : asText (ascii ",\"channel_messages\":") = label ',' "channel_messages" := by decide
  have h6 : asText (ascii ",\"direct_messages\":") = label ',' "direct_messages" := by decide
  have h7 : asText (ascii ",\"malformed_frames\":") = label ',' "malformed_frames" := by decide
  have h8 : asText (ascii ",\"queue_disconnects\":") = label ',' "queue_disconnects" := by decide
  have h9 : asText (ascii ",\"max_queue_bytes\":") = label ',' "max_queue_bytes" := by decide
  have hnil : asText [] = [] := rfl
  have hall := asText_counter (asText_counter (asText_counter (asText_counter (asText_counter
    (asText_counter (asText_counter (asText_counter (asText_counter hnil
      h1 s.stats.currentConnections)
      h2 (Core.slots.filter fun i => (s.clients i).Live ∧ (s.clients i).registered = true).length)
      h3 s.stats.totalConnections) h4 s.channels.length) h5 s.stats.channelMessages)
      h6 s.stats.directMessages) h7 s.stats.malformedFrames) h8 s.stats.queueDisconnects)
      h9 s.maxQueueBytes
  unfold Core.statsText
  refine List.map_append.trans ((congrArg (· ++ [ch '\x7d']) hall).trans ?_)
  simp only [label, counters, countersText, membersText, quoted, List.append_assoc,
    List.cons_append, List.nil_append]

/-- The names of the counters. -/
def counterNames : List PyStr :=
  [text "current_connections", text "registered_clients", text "total_connections",
    text "channels", text "channel_messages", text "direct_messages", text "malformed_frames",
    text "queue_disconnects", text "max_queue_bytes"]

/-- **The counters of the core are read back.** -/
theorem loads_statsText (s : Core.Server) :
    loads (asText (Core.statsText s)) = some (.object (numbers (counters s))) := by
  have hnames : (counters s).map Prod.fst = counterNames := rfl
  have hplain : ∀ key ∈ counterNames, ∀ c ∈ key, IsPlain c := by
    have hall : (counterNames.all fun key => key.all fun c => IsPlain c) = true := by decide +kernel
    simpa only [List.all_eq_true, decide_eq_true_eq] using hall
  have hnodup : counterNames.Nodup := by decide
  rw [asText_statsText]
  refine loads_counters (fun p hp => hplain p.1 ?_) (hnames ▸ hnodup)
  rw [← hnames]
  exact List.mem_map_of_mem hp

/-! ## Frames -/

/-- The strings of a frame are relayed text at the end and ASCII before it. -/
theorem decodeStrings_relayed {names : List Bytes} {relayed : Bytes}
    (hnames : ∀ name ∈ names, IsAscii name)
    (hlen : ((names ++ [relayed]).map stringField).flatten.length ≤ cwMaxPayloadSize) :
    (∀ t, encode t = some relayed →
      decodeStrings ((names ++ [relayed]).map stringField).flatten = .ok (names.map asText ++ [t])) ∧
    ∀ values, decodeStrings ((names ++ [relayed]).map stringField).flatten = .ok values →
      IsUtf8 relayed := by
  have hshort := length_lt_of_fields hlen
  constructor
  · intro t ht
    refine decodeStrings_fields (List.rel_append ?_ (.cons (encode_eq_some_iff.mp ht) .nil)) hshort
    rw [List.forall₂_map_left_iff, List.forall₂_same]
    exact fun name hname => decode_ascii (hnames name hname)
  · intro values hvalues
    have hlast := List.forall₂_drop_append _ _ _ (decodeStringsLoop_fields_ok hshort hvalues)
    obtain ⟨t, _, ht, -⟩ := List.forall₂_cons_right_iff.mp hlast
    exact ⟨t, encode_eq_some_iff.mpr ht⟩

/-- The event of a frame for connection `k` that was made in state `s` says what is in the frame. -/
structure Decodes (s : Core.Server) (k : ℕ) (frame : Frame) : Prop where
  /-- `gateway_event` does not raise. -/
  event : ∃ event, gatewayEvent frame = .ok event
  chat : frame.type = ServerMsgType.chat.toByte →
    ∃ channel sender text, gatewayEvent frame = .ok (.chat channel sender text)
  dm : frame.type = ServerMsgType.dmRecv.toByte →
    ∃ sender text, gatewayEvent frame = .ok (.dm sender text)
  /-- The users are the members of the active channel of the client that gets the frame. -/
  who : frame.type = ServerMsgType.whoResp.toByte → ∃ i idx, (s.clients i).Live ∧
    (s.clients i).conn = k ∧ Core.findChannel s (s.clients i).activeChannel = some idx ∧
    gatewayEvent frame = .ok (.who ((Core.members s idx).map fun j => asText (s.clients j).username))
  list : frame.type = ServerMsgType.listResp.toByte →
    gatewayEvent frame = .ok (.channels (s.channels.map asText))
  stats : frame.type = ServerMsgType.statsResp.toByte →
    gatewayEvent frame = .ok (.coreStats (numbers (counters s)))

/-- The frame is no `CHAT` or `DM_RECV`, or the text in it, its last string, is UTF-8. -/
def RelaysUtf8 (frame : Frame) : Prop :=
  frame.type = ServerMsgType.chat.toByte ∨ frame.type = ServerMsgType.dmRecv.toByte →
    ∀ values ∈ splitStrings frame.payload, ∀ relayed ∈ values.getLast?, IsUtf8 relayed

section Produced

variable {s : Core.Server} {k : ℕ} {type : ServerMsgType} {payload : Bytes} {event : GatewayEvent}

/-- What has to be said of an event, by the type of its frame. -/
theorem Decodes.intro (h : gatewayEvent ⟨type.toByte, payload⟩ = .ok event)
    (hchat : type = .chat → ∃ channel sender text, event = .chat channel sender text)
    (hdm : type = .dmRecv → ∃ sender text, event = .dm sender text)
    (hwho : type = .whoResp → ∃ i idx, (s.clients i).Live ∧ (s.clients i).conn = k ∧
      Core.findChannel s (s.clients i).activeChannel = some idx ∧
      event = .who ((Core.members s idx).map fun j => asText (s.clients j).username))
    (hlist : type = .listResp → event = .channels (s.channels.map asText))
    (hstats : type = .statsResp → event = .coreStats (numbers (counters s))) :
    Decodes s k ⟨type.toByte, payload⟩ := by
  constructor
  · exact ⟨event, h⟩
  · intro htype
    obtain ⟨channel, sender, t, rfl⟩ := hchat (ServerMsgType.toByte_inj.mp htype)
    exact ⟨channel, sender, t, h⟩
  · intro htype
    obtain ⟨sender, t, rfl⟩ := hdm (ServerMsgType.toByte_inj.mp htype)
    exact ⟨sender, t, h⟩
  · intro htype
    obtain ⟨i, idx, hl, hk, hfind, rfl⟩ := hwho (ServerMsgType.toByte_inj.mp htype)
    exact ⟨i, idx, hl, hk, hfind, h⟩
  · intro htype
    rw [h, hlist (ServerMsgType.toByte_inj.mp htype)]
  · intro htype
    rw [h, hstats (ServerMsgType.toByte_inj.mp htype)]

theorem relaysUtf8_of_ne (hchat : type ≠ .chat) (hdm : type ≠ .dmRecv) :
    RelaysUtf8 ⟨type.toByte, payload⟩ := by
  rintro (h | h)
  · exact absurd (ServerMsgType.toByte_inj.mp h) hchat
  · exact absurd (ServerMsgType.toByte_inj.mp h) hdm

/-- The last of the strings of a relayed frame is its text. -/
theorem relaysUtf8_iff {names : List Bytes} {relayed : Bytes}
    (htype : type = .chat ∨ type = .dmRecv)
    (hlen : ((names ++ [relayed]).map stringField).flatten.length ≤ cwMaxPayloadSize) :
    RelaysUtf8 ⟨type.toByte, ((names ++ [relayed]).map stringField).flatten⟩ ↔
      IsUtf8 relayed := by
  have hsplit : splitStrings ((names ++ [relayed]).map stringField).flatten =
      some (names ++ [relayed]) :=
    splitStrings_eq_some_iff.mpr ⟨rfl, length_lt_of_fields hlen⟩
  have htype' : type.toByte = ServerMsgType.chat.toByte ∨
      type.toByte = ServerMsgType.dmRecv.toByte :=
    htype.imp (congrArg _) (congrArg _)
  constructor
  · intro h
    exact h htype' _ hsplit relayed (List.getLast?_concat ..)
  · intro h _ values hvalues last hlast
    obtain rfl : names ++ [relayed] = values := Option.some.inj (hsplit.symm.trans hvalues)
    obtain rfl : relayed = last := Option.some.inj ((List.getLast?_concat ..).symm.trans hlast)
    exact h

theorem length_chatPayload {i : Core.Slot} {relayed : Bytes} (hc : Core.ChannelsOk s)
    (hv : Core.NamesOk s) (hlen : relayed.length ≤ Core.cwTextCap) :
    (Core.chatPayload (s.clients i) relayed).length ≤ cwMaxPayloadSize := by
  have hchannel := hc.length_activeChannel i
  have hname := hv.length_username i
  simp only [Core.chatPayload, List.map_cons, List.map_nil, List.flatten_cons, List.flatten_nil,
    List.length_append, length_stringField, List.length_nil, cwMaxPayloadSize, Core.cwTextCap,
    Core.cwChannelCap, Core.cwNameCap] at hchannel hname hlen ⊢
  omega

theorem length_dmPayload {i : Core.Slot} {relayed : Bytes} (hv : Core.NamesOk s)
    (hlen : relayed.length ≤ Core.cwTextCap) :
    (Core.dmPayload (s.clients i) relayed).length ≤ cwMaxPayloadSize := by
  have hname := hv.length_username i
  simp only [Core.dmPayload, List.map_cons, List.map_nil, List.flatten_cons, List.flatten_nil,
    List.length_append, length_stringField, List.length_nil, cwMaxPayloadSize, Core.cwTextCap,
    Core.cwNameCap] at hname hlen ⊢
  omega

/-- A `CHAT` of the core is decoded if and only if its text is UTF-8. -/
theorem decodes_chat_iff (hc : Core.ChannelsOk s) (hv : Core.NamesOk s) (i : Core.Slot)
    {relayed : Bytes} (hlen : relayed.length ≤ Core.cwTextCap) :
    Decodes s k ⟨ServerMsgType.chat.toByte, Core.chatPayload (s.clients i) relayed⟩ ↔
      IsUtf8 relayed := by
  have hnames : ∀ name ∈ [(s.clients i).activeChannel, (s.clients i).username], IsAscii name := by
    rw [List.forall_mem_cons, List.forall_mem_singleton]
    exact ⟨isAscii_activeChannel hc i, isAscii_username hv i⟩
  obtain ⟨hdecode, hutf8⟩ := decodeStrings_relayed hnames (length_chatPayload hc hv hlen)
  have hevent : ∀ values, decodeStrings (Core.chatPayload (s.clients i) relayed) = .ok values →
      IsUtf8 relayed := hutf8
  constructor
  · intro h
    obtain ⟨channel, sender, t, hok⟩ := h.chat rfl
    exact hevent _ (gatewayEvent_of hok).2
  · rintro ⟨t, ht⟩
    have hpayload : decodeStrings (Core.chatPayload (s.clients i) relayed) =
        .ok [asText (s.clients i).activeChannel, asText (s.clients i).username, t] := hdecode t ht
    have hok : gatewayEvent ⟨ServerMsgType.chat.toByte, Core.chatPayload (s.clients i) relayed⟩ =
        .ok (.chat (asText (s.clients i).activeChannel) (asText (s.clients i).username) t) := by
      simp only [gatewayEvent, ServerMsgType.ofByte_toByte, hpayload]
    exact .intro hok (fun _ => ⟨_, _, _, rfl⟩) (fun h => by cases h) (fun h => by cases h)
      (fun h => by cases h) (fun h => by cases h)

/-- A `DM_RECV` of the core is decoded if and only if its text is UTF-8. -/
theorem decodes_dm_iff (hv : Core.NamesOk s) (i : Core.Slot) {relayed : Bytes}
    (hlen : relayed.length ≤ Core.cwTextCap) :
    Decodes s k ⟨ServerMsgType.dmRecv.toByte, Core.dmPayload (s.clients i) relayed⟩ ↔
      IsUtf8 relayed := by
  have hnames : ∀ name ∈ [(s.clients i).username], IsAscii name := by
    rw [List.forall_mem_singleton]
    exact isAscii_username hv i
  obtain ⟨hdecode, hutf8⟩ := decodeStrings_relayed hnames (length_dmPayload hv hlen)
  have hevent : ∀ values, decodeStrings (Core.dmPayload (s.clients i) relayed) = .ok values →
      IsUtf8 relayed := hutf8
  constructor
  · intro h
    obtain ⟨sender, t, hok⟩ := h.dm rfl
    exact hevent _ (gatewayEvent_of hok).2
  · rintro ⟨t, ht⟩
    have hpayload : decodeStrings (Core.dmPayload (s.clients i) relayed) =
        .ok [asText (s.clients i).username, t] := hdecode t ht
    have hok : gatewayEvent ⟨ServerMsgType.dmRecv.toByte, Core.dmPayload (s.clients i) relayed⟩ =
        .ok (.dm (asText (s.clients i).username) t) := by
      simp only [gatewayEvent, ServerMsgType.ofByte_toByte, hpayload]
    exact .intro hok (fun h => by cases h) (fun _ => ⟨_, _, rfl⟩) (fun h => by cases h)
      (fun h => by cases h) (fun h => by cases h)

/-- The payload of a `WHO_RESP` is decoded to the users of the channel. -/
theorem decodes_who {i : Core.Slot} {idx : ℕ} (hv : Core.NamesOk s)
    (hl : (s.clients i).Live) (hk : (s.clients i).conn = k)
    (hfind : Core.findChannel s (s.clients i).activeChannel = some idx)
    (hlines : Core.appendLines cwMaxPayloadSize []
      ((Core.members s idx).map fun j => (s.clients j).username) = some payload) :
    Decodes s k ⟨ServerMsgType.whoResp.toByte, payload⟩ := by
  have hvalid : ∀ name ∈ (Core.members s idx).map fun j => (s.clients j).username,
      Core.ValidName name := by
    intro name hname
    obtain ⟨j, hj, rfl⟩ := List.mem_map.mp hname
    have hreg := (Core.mem_members.mp hj).2.1
    exact hv.valid j ((hv.registered_iff j).mp hreg)
  have hok : gatewayEvent ⟨ServerMsgType.whoResp.toByte, payload⟩ =
      .ok (.who ((Core.members s idx).map fun j => asText (s.clients j).username)) := by
    simp only [gatewayEvent, ServerMsgType.ofByte_toByte, splitlines_appendLines hvalid hlines,
      List.map_map]
    rfl
  exact .intro hok (fun h => by cases h) (fun h => by cases h)
    (fun _ => ⟨i, idx, hl, hk, hfind, rfl⟩) (fun h => by cases h) (fun h => by cases h)

theorem decodes_list (hc : Core.ChannelsOk s)
    (hlines : Core.appendLines cwMaxPayloadSize [] s.channels = some payload) :
    Decodes s k ⟨ServerMsgType.listResp.toByte, payload⟩ := by
  have hok : gatewayEvent ⟨ServerMsgType.listResp.toByte, payload⟩ =
      .ok (.channels (s.channels.map asText)) := by
    simp only [gatewayEvent, ServerMsgType.ofByte_toByte, splitlines_appendLines hc.valid hlines]
  exact .intro hok (fun h => by cases h) (fun h => by cases h) (fun h => by cases h)
    (fun _ => rfl) (fun h => by cases h)

theorem decodes_stats : Decodes s k ⟨ServerMsgType.statsResp.toByte, Core.statsText s⟩ := by
  have hok : gatewayEvent ⟨ServerMsgType.statsResp.toByte, Core.statsText s⟩ =
      .ok (.coreStats (numbers (counters s))) := by
    simp only [gatewayEvent, ServerMsgType.ofByte_toByte, coreStatsEvent,
      decode_ascii (isAscii_statsText s), loads_statsText]
  exact .intro hok (fun h => by cases h) (fun h => by cases h) (fun h => by cases h)
    (fun h => by cases h) (fun _ => rfl)

/-- **What becomes of a frame of the core.** -/
theorem decodes_iff_of_produced {frame : Frame} (hc : Core.ChannelsOk s) (hv : Core.NamesOk s)
    (h : Core.Produced s k frame) : Decodes s k frame ↔ RelaysUtf8 frame := by
  cases h with
  | @notice type t htype =>
    have hne : ∀ other : ServerMsgType, other ∉ [ServerMsgType.ok, .error, .system] →
        type ≠ other := by
      rintro other hother rfl
      exact hother htype
    have hok : ∃ event, gatewayEvent ⟨type.toByte, t⟩ = .ok event := by
      simp only [List.mem_cons, List.not_mem_nil, or_false] at htype
      rcases htype with rfl | rfl | rfl <;>
        simp only [gatewayEvent, ServerMsgType.ofByte_toByte] <;> exact ⟨_, rfl⟩
    obtain ⟨event, hevent⟩ := hok
    refine iff_of_true (.intro hevent ?_ ?_ ?_ ?_ ?_) (relaysUtf8_of_ne ?_ ?_)
    · exact fun h => absurd h (hne _ (by decide))
    · exact fun h => absurd h (hne _ (by decide))
    · exact fun h => absurd h (hne _ (by decide))
    · exact fun h => absurd h (hne _ (by decide))
    · exact fun h => absurd h (hne _ (by decide))
    · exact hne _ (by decide)
    · exact hne _ (by decide)
  | chat i hlen =>
    rw [decodes_chat_iff hc hv i hlen]
    exact (@relaysUtf8_iff _ [(s.clients i).activeChannel, (s.clients i).username] _ (.inl rfl)
      (length_chatPayload hc hv hlen)).symm
  | dm i hlen =>
    rw [decodes_dm_iff hv i hlen]
    exact (@relaysUtf8_iff _ [(s.clients i).username] _ (.inr rfl)
      (length_dmPayload hv hlen)).symm
  | who hl hk hfind hlines =>
    exact iff_of_true (decodes_who hv hl hk hfind hlines)
      (relaysUtf8_of_ne (by decide) (by decide))
  | list hlines =>
    exact iff_of_true (decodes_list hc hlines) (relaysUtf8_of_ne (by decide) (by decide))
  | stats => exact iff_of_true decodes_stats (relaysUtf8_of_ne (by decide) (by decide))

end Produced

/-! ## Runs -/

/-- **The gateway can decode exactly the texts that are UTF-8.**  Every frame that any step from a
reachable state enqueues to some client is decoded by `gateway_event` to what it says, if and only
if it is no `CHAT` or `DM_RECV` with a text that is not UTF-8. -/
theorem gateway_decodes_iff {s t : Core.Server} (h : Core.Reachable s) (hst : Core.Step s t) {k : ℕ}
    {frame : Frame} (he : .enqueued k frame ∈ Core.recorded s t) :
    Decodes s k frame ↔ RelaysUtf8 frame :=
  decodes_iff_of_produced (Core.channelsOk h.moveReachable) (Core.namesOk h.moveReachable)
    (Core.Step.produced h hst he)

/-- A text of `alice` has arrived in the room. -/
def roomBefore (relayed : Bytes) : Core.Server :=
  Core.recvChunk Core.roomWithText 0 (⟨ClientMsgType.say.toByte, stringField relayed⟩ : Frame).encode

/-- What `bob` gets of it. -/
def chatFromAlice (relayed : Bytes) : Frame :=
  ⟨ServerMsgType.chat.toByte, ([ascii "room", ascii "alice", relayed].map stringField).flatten⟩

theorem reachable_roomBefore {relayed : Bytes} (h : relayed.length ≤ 1024) :
    Core.Reachable (roomBefore relayed) := by
  have hlive : (Core.roomWithText.clients 0).Live := by decide +kernel
  have hinbuf : (Core.roomWithText.clients 0).inbuf = [] := by decide +kernel
  refine .step Core.reachable_roomWithText (.recv hlive ?_ ?_)
  · exact List.cons_ne_nil _ _
  · rw [hinbuf, Frame.length_encode, length_stringField, List.length_nil]
    have hcap : Core.cwInbufCap = 4101 := by decide
    unfold cwFrameHeaderSize
    omega

/-- `bob` gets a text with an `é` in it. -/
theorem gateway_decodes_iff_room :
    Decodes (roomBefore [99, 97, 102, 0xC3, 0xA9]) 2 (chatFromAlice [99, 97, 102, 0xC3, 0xA9]) ↔
      RelaysUtf8 (chatFromAlice [99, 97, 102, 0xC3, 0xA9]) :=
  gateway_decodes_iff (reachable_roomBefore (by decide)) (.drain (i := 0) (by decide +kernel))
    (by decide +kernel)

/-- A client of the core that is no gateway says a byte that is no text, and the frame that `bob`
gets cannot be decoded. -/
theorem raw_text_not_decoded : ¬ ∀ s t, Core.Reachable s → Core.Step s t → ∀ k frame,
    .enqueued k frame ∈ Core.recorded s t → ∃ event, gatewayEvent frame = .ok event := by
  intro h
  obtain ⟨event, hevent⟩ := h (roomBefore [0xFF]) _ (reachable_roomBefore (by decide))
    (.drain (by decide +kernel : ((roomBefore [0xFF]).clients 0).Live)) 2 (chatFromAlice [0xFF])
    (by decide +kernel)
  have hraises : gatewayEvent (chatFromAlice [0xFF]) = .error .unicodeDecode := by rfl
  rw [hraises] at hevent
  cases hevent

end Gateway
end ChannelWire
