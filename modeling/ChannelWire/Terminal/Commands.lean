import ChannelWire.Frontend.Forms

/-!
# The terminal client

`handle_command` of `tools/cw_client.py` writes the frames of typed lines to the core; it knows the
commands of the dashboard's chat field (`handleSlashCommand`), but it reads a line in another way.
The terminal client splits it at its first two spaces and looks the command up in lower case; the
dashboard trims the text, splits it at runs of white space and joins the text of a message again.
Between the dashboard and the core stands `core_payload_for_command` of the gateway.

What the dashboard makes of a text before it looks at the words is again a line (`normalized`).
For this line the terminal client writes the bytes that the gateway writes for the dashboard's
command object (`terminal_writes_the_same`).
-/

namespace ChannelWire

open Gateway (PyStr py ValueError Dict lower)

namespace Frontend

/-- The object `JSON.stringify` writes and `json.loads` reads again. -/
def CommandObject.toDict : CommandObject → Dict
  | .say text => [(py "type", .string (py "say")), (py "text", .string text)]
  | .dm recipient text =>
    [(py "type", .string (py "dm")), (py "to", .string recipient), (py "text", .string text)]
  | .channelCommand type channel => [(py "type", .string type), (py "channel", .string channel)]

end Frontend

namespace Terminal

open Frontend Words

/-! ## The terminal client -/

/-- The text before the first space, and the text behind it. -/
def splitFirst : PyStr → PyStr × Option PyStr
  | [] => ([], none)
  | c :: s => if c = 0x20 then ([], some s) else ((c :: (splitFirst s).1), (splitFirst s).2)

/-- `split(" ", 2)`. -/
def splitTwice (s : PyStr) : List PyStr :=
  match splitFirst s with
  | (first, none) => [first]
  | (first, some s) =>
    match splitFirst s with
    | (second, none) => [first, second]
    | (second, some rest) => [first, second, rest]

/-- `send_frame` with a `string_payload`: the bytes it writes. -/
def sendStrings (msgType : ClientMsgType) (values : List PyStr) : Except ValueError Bytes :=
  match Gateway.stringPayload values with
  | .error e => .error e
  | .ok payload => Gateway.encodeFrame msgType.toByte payload

/-- The branches of `handle_command` for a command: what `parts` asks to send. -/
def handleParts (parts : List PyStr) : Except ValueError (Option Bytes) :=
  let command := lower (parts.getD 0 [])
  if command = py "/join" ∧ 2 ≤ parts.length then some <$> sendStrings .join [parts.getD 1 []]
  else if command = py "/switch" ∧ 2 ≤ parts.length then
    some <$> sendStrings .switch [parts.getD 1 []]
  else if command = py "/leave" ∧ 2 ≤ parts.length then
    some <$> sendStrings .leave [parts.getD 1 []]
  else if command = py "/dm" ∧ parts.length = 3 then
    some <$> sendStrings .dm [parts.getD 1 [], parts.getD 2 []]
  else if command = py "/nick" ∧ 2 ≤ parts.length then
    some <$> sendStrings .nick [parts.getD 1 []]
  else if command = py "/who" then some <$> sendStrings .who []
  else if command = py "/list" then some <$> sendStrings .list []
  else if command = py "/stats" then some <$> sendStrings .stats []
  else if command = py "/quit" then some <$> sendStrings .quit []
  else .ok none

/-- `handle_command`: the bytes that are written for a line, if any. -/
def handleCommand (line : PyStr) : Except ValueError (Option Bytes) :=
  if line = [] then .ok none
  else if ¬ (py "/").isPrefixOf line then some <$> sendStrings .say [line]
  else handleParts (splitTwice line)

/-! ## The words of a line -/

/-- No space stands in the text. -/
def NoSpace (s : PyStr) : Prop := ∀ c ∈ s, c ≠ 0x20

theorem splitFirst_of_noSpace {s : PyStr} (h : NoSpace s) : splitFirst s = (s, none) := by
  induction s with
  | nil => rfl
  | cons c s ih =>
    rw [splitFirst, if_neg (h c List.mem_cons_self), ih fun d hd => h d (List.mem_cons_of_mem c hd)]

theorem splitFirst_word {word s : PyStr} (h : NoSpace word) :
    splitFirst (word ++ 0x20 :: s) = (word, some s) := by
  induction word with
  | nil => rfl
  | cons c word ih =>
    rw [List.cons_append, splitFirst, if_neg (h c List.mem_cons_self),
      ih fun d hd => h d (List.mem_cons_of_mem c hd)]

/-- **Words that were joined with spaces** are found again, the third and all later ones in one
piece. -/
theorem splitTwice_intercalate {first second : PyStr} {words : List PyStr} (h₁ : NoSpace first)
    (h₂ : NoSpace second) : splitTwice ([0x20].intercalate (first :: second :: words)) =
      first :: second :: if words = [] then [] else [[0x20].intercalate words] := by
  rw [List.intercalate_cons_cons, List.append_assoc, List.singleton_append]
  unfold splitTwice
  rw [splitFirst_word h₁]
  cases words with
  | nil =>
    rw [List.intercalate_singleton]
    simp only [splitFirst_of_noSpace h₂, if_true]
  | cons third words =>
    rw [List.intercalate_cons_cons, List.append_assoc, List.singleton_append]
    simp only [splitFirst_word h₂, List.cons_ne_nil, if_false]

theorem noSpace_of_mem_splitSpaces {s word : PyStr} (h : word ∈ splitSpaces s) : NoSpace word := by
  intro c hc heq
  have hblank := not_blank_of_mem_splitRuns h c hc
  rw [heq] at hblank
  exact absurd hblank (by decide)

/-! ## What the gateway writes -/

/-- What the gateway writes for a command is packed from the strings the command carries. -/
theorem sendStrings_of_forward {message : Dict} {bytes : Bytes}
    (h : Gateway.forward message = .ok bytes) :
    ∃ msgType, Gateway.clientCommand message = some msgType ∧
      sendStrings msgType (Gateway.commandStrings message msgType) = .ok bytes := by
  unfold Gateway.forward at h
  cases hm : Gateway.corePayloadForCommand message with
  | error e => rw [hm] at h; cases h
  | ok r =>
    obtain ⟨msgType, payload⟩ := r
    rw [hm] at h
    obtain ⟨hcommand, -, hpayload⟩ := Gateway.corePayloadForCommand_ok hm
    refine ⟨msgType, hcommand, ?_⟩
    rw [sendStrings, hpayload]
    exact h

/-! ## One line, two readers -/

/-- What the dashboard reads a submitted text as: trimmed, and a command with one space for every
run of white space. -/
def normalized (message : PyStr) : PyStr :=
  let text := jsTrim message
  if (py "/").isPrefixOf text then 0x2F :: collapse isJsSpace 0x20 text.tail else text

theorem exists_of_slash {text : PyStr} (h : (py "/").isPrefixOf text = true) :
    text = 0x2F :: text.tail := by
  obtain ⟨rest, rfl⟩ := List.isPrefixOf_iff_prefix.mp h
  rfl

/-- A text that has no white space at its ends, and only single spaces inside, is read as it is. -/
theorem normalized_eq_self {message : PyStr} (htrim : jsTrim message = message)
    (hsingle : SingleBlanks isJsSpace 0x20 message) : normalized message = message := by
  unfold normalized
  simp only [htrim]
  split_ifs with hslash
  · have htext := exists_of_slash hslash
    rw [htext] at hsingle
    have hcollapse := (intercalate_splitRuns_eq_iff message.tail).mpr
      (singleBlanks_cons.mp hsingle).2
    rw [intercalate_splitRuns] at hcollapse
    rw [hcollapse]
    exact htext.symm
  · rfl

/-- A command is read as its words, joined with spaces. -/
theorem normalized_of_words {message first : PyStr} {words : List PyStr}
    (hslash : (py "/").isPrefixOf (jsTrim message) = true)
    (hwords : splitSpaces (jsTrim message).tail = first :: words) :
    normalized message = [0x20].intercalate ((0x2F :: first) :: words) := by
  have hjoin : [0x20].intercalate ((0x2F :: first) :: words) =
      0x2F :: [0x20].intercalate (first :: words) :=
    intercalate_consHead (List.cons_ne_nil first words)
  unfold normalized
  simp only [hslash, if_true]
  rw [← intercalate_splitRuns, ← splitSpaces, hwords]
  exact hjoin.symm

/-- `parts[0]` is there and not empty. -/
theorem exists_cons_of_headD {parts : List PyStr} (h : parts.headD [] ≠ []) :
    ∃ word words, parts = word :: words := by
  cases parts with
  | nil => exact absurd rfl h
  | cons word words => exact ⟨word, words, rfl⟩

/-- The command objects of `handleSlashCommand`, with the words they were made of. -/
theorem words_of_mem_sends {input : PyStr} {command : CommandObject}
    (h : command ∈ sends (handleSlashCommand input)) :
    (∃ type channel words, splitSpaces input.tail = type :: channel :: words ∧
        type ∈ [py "join", py "switch", py "leave"] ∧ command = .channelCommand type channel) ∨
      ∃ recipient text words, splitSpaces input.tail = py "dm" :: recipient :: text :: words ∧
        command = .dm recipient ([0x20].intercalate (text :: words)) := by
  unfold handleSlashCommand at h
  cases hwords : splitSpaces input.tail with
  | nil =>
    rw [hwords] at h
    exact absurd h List.not_mem_nil
  | cons first parts =>
    rw [hwords] at h
    simp only at h
    -- the branches that send nothing go at once; `join` stands twice, for the list it asks later
    split_ifs at h with hhelp hclear hchannel hempty hjoin hdm hmissing <;>
      try exact absurd h List.not_mem_nil
    · obtain ⟨channel, words, rfl⟩ := exists_cons_of_headD hempty
      refine .inl ⟨first, channel, words, rfl, ?_, List.mem_singleton.mp h⟩
      simpa using hchannel
    · obtain ⟨channel, words, rfl⟩ := exists_cons_of_headD hempty
      refine .inl ⟨first, channel, words, rfl, ?_, List.mem_singleton.mp h⟩
      simpa using hchannel
    · obtain ⟨hrecipient, htext⟩ := not_or.mp hmissing
      obtain ⟨recipient, parts, rfl⟩ := exists_cons_of_headD hrecipient
      obtain ⟨text, words, rfl⟩ := exists_cons_of_headD htext
      exact .inr ⟨recipient, text, words, by rw [hdm], List.mem_singleton.mp h⟩

theorem handleCommand_of_words {first second : PyStr} {words : List PyStr}
    (h₁ : NoSpace first) (h₂ : NoSpace second) :
    handleCommand ([0x20].intercalate ((0x2F :: first) :: second :: words)) =
      handleParts ((0x2F :: first) :: second ::
        if words = [] then [] else [[0x20].intercalate words]) := by
  have hslash : NoSpace (0x2F :: first) := List.forall_mem_cons.mpr ⟨by decide, h₁⟩
  obtain ⟨rest, hrest⟩ : ∃ rest,
      [0x20].intercalate ((0x2F :: first) :: second :: words) = 0x2F :: rest :=
    ⟨_, intercalate_consHead (List.cons_ne_nil first (second :: words))⟩
  rw [← splitTwice_intercalate hslash h₂, hrest]
  rfl

theorem handleParts_channel {type channel : PyStr} {rest : List PyStr} {msgType : ClientMsgType}
    {bytes : Bytes} (htype : type ∈ [py "join", py "switch", py "leave"])
    (hcommand : Gateway.clientCommand (CommandObject.channelCommand type channel).toDict =
      some msgType)
    (hbytes : sendStrings msgType (Gateway.commandStrings
      (CommandObject.channelCommand type channel).toDict msgType) = .ok bytes) :
    handleParts ((0x2F :: type) :: channel :: rest) = .ok (some bytes) := by
  have hlen : 2 ≤ ((0x2F :: type) :: channel :: rest).length := Nat.le_add_left 2 _
  unfold handleParts
  simp only [List.getD_cons_zero, List.getD_cons_succ, hlen, and_true]
  simp only [List.mem_cons, List.not_mem_nil, or_false] at htype
  rcases htype with rfl | rfl | rfl
  · obtain rfl : ClientMsgType.join = msgType := Option.some.inj hcommand
    rw [if_pos (by decide)]
    exact congrArg (some <$> ·) hbytes
  · obtain rfl : ClientMsgType.switch = msgType := Option.some.inj hcommand
    rw [if_neg (by decide), if_pos (by decide)]
    exact congrArg (some <$> ·) hbytes
  · obtain rfl : ClientMsgType.leave = msgType := Option.some.inj hcommand
    rw [if_neg (by decide), if_neg (by decide), if_pos (by decide)]
    exact congrArg (some <$> ·) hbytes

theorem handleParts_dm {recipient text : PyStr} {bytes : Bytes}
    (hbytes : sendStrings .dm [recipient, text] = .ok bytes) :
    handleParts [0x2F :: py "dm", recipient, text] = .ok (some bytes) := by
  unfold handleParts
  simp only [List.getD_cons_zero, List.getD_cons_succ, List.length_cons, List.length_nil,
    Nat.reduceAdd, Nat.reduceLeDiff, and_true]
  rw [if_neg (by decide), if_neg (by decide), if_neg (by decide), if_pos (by decide)]
  exact congrArg (some <$> ·) hbytes

/-- **The terminal client writes what the gateway writes for the dashboard.**  For every text
submitted in the chat field for which `sendChat` or `handleSlashCommand` itself calls `send` (a text
to say, `/join`, `/switch`, `/leave` and `/dm`), and for which the gateway has a frame,
`handle_command` writes the same bytes to the core for the line that the dashboard read the text as;
a text without white space at its ends and with single spaces inside is that line itself. -/
theorem terminal_writes_the_same {message : PyStr} {command : CommandObject} {bytes : Bytes}
    (h : command ∈ sends (sendChat message))
    (hforward : Gateway.forward command.toDict = .ok bytes) :
    handleCommand (normalized message) = .ok (some bytes) ∧
      (jsTrim message = message → SingleBlanks isJsSpace 0x20 message →
        handleCommand message = .ok (some bytes)) := by
  have hmain : handleCommand (normalized message) = .ok (some bytes) := by
    obtain ⟨msgType, hcommand, hbytes⟩ := sendStrings_of_forward hforward
    unfold sendChat at h
    simp only at h
    split_ifs at h with hempty hslash
    · exact absurd h List.not_mem_nil
    · rcases words_of_mem_sends h with ⟨type, channel, words, hwords, htype, rfl⟩ |
        ⟨recipient, text, words, hwords, rfl⟩
      · have hmem : ∀ word ∈ type :: channel :: words, NoSpace word := fun word hword =>
          noSpace_of_mem_splitSpaces (hwords ▸ hword)
        rw [normalized_of_words hslash hwords, handleCommand_of_words
          (hmem type List.mem_cons_self) (hmem channel (List.mem_cons_of_mem _ List.mem_cons_self))]
        exact handleParts_channel htype hcommand hbytes
      · have hmem : ∀ word ∈ py "dm" :: recipient :: text :: words, NoSpace word :=
          fun word hword => noSpace_of_mem_splitSpaces (hwords ▸ hword)
        obtain rfl : ClientMsgType.dm = msgType := Option.some.inj hcommand
        rw [normalized_of_words hslash hwords, handleCommand_of_words (hmem _ List.mem_cons_self)
          (hmem recipient (List.mem_cons_of_mem _ List.mem_cons_self)),
          if_neg (List.cons_ne_nil text words)]
        exact handleParts_dm hbytes
    · obtain rfl := List.mem_singleton.mp h
      obtain rfl : ClientMsgType.say = msgType := Option.some.inj hcommand
      unfold normalized handleCommand
      simp only [hslash, hempty, not_false_eq_true, Bool.false_eq_true, if_false, if_true]
      exact congrArg (some <$> ·) hbytes
  exact ⟨hmain, fun htrim hsingle => normalized_eq_self htrim hsingle ▸ hmain⟩

/-- A `/dm` with white space around its words. -/
theorem terminal_writes_the_same_dm :
    handleCommand (normalized (py " /dm  bob hi   there")) = .ok (some
      (⟨6, stringField (ascii "bob") ++ stringField (ascii "hi there")⟩ : Frame).encode) := by
  have hsent : .dm (py "bob") (py "hi there") ∈ sends (sendChat (py " /dm  bob hi   there")) := by
    decide +kernel
  exact (terminal_writes_the_same hsent (by rfl)).1

end Terminal
end ChannelWire
