import ChannelWire.Foundation.Regex
import ChannelWire.Foundation.Words
import ChannelWire.Frontend.Dashboard
import ChannelWire.Gateway.Names

/-!
# The forms of the dashboard

`sendChat`, `handleSlashCommand` and `sendDirect`: what a submitted text asks for.  A form is a
function from the texts of its fields to the calls it makes, one after the other; `Action.send` is a
call of `send` with a command object.

A direct message can be sent by its form or as `/dm`.  The form trims the text, the command is
split at white space and joined again with spaces (`sendChat_dm`), so both send the same if every
run of white space inside the text is one space.
-/

namespace ChannelWire
namespace Frontend

open Gateway (PyStr py)
open Regex Words

/-- White space, as `trim` and `\s` take it. -/
def isJsSpace (c : Utf8.CodePoint) : Bool :=
  let n := c.val
  (0x9 ≤ n && n ≤ 0xD) || n == 0x20 || n == 0xA0 || n == 0x1680 || (0x2000 ≤ n && n ≤ 0x200A) ||
    n == 0x2028 || n == 0x2029 || n == 0x202F || n == 0x205F || n == 0x3000 || n == 0xFEFF

/-- `trim`. -/
def jsTrim (s : PyStr) : PyStr := trim isJsSpace s

/-- `split(/\s+/)`. -/
def splitSpaces (s : PyStr) : List PyStr := splitRuns isJsSpace s

/-- A command object that a form sends. -/
inductive CommandObject where
  | say (text : PyStr)
  | dm (recipient text : PyStr)
  /-- `{ type: command, channel }`. -/
  | channelCommand (type channel : PyStr)
  deriving DecidableEq

/-- A call that a form makes. -/
inductive Action where
  | setError (text : PyStr)
  | setMessage (text : PyStr)
  | setDmText (text : PyStr)
  | setChannel (channel : PyStr)
  | send (command : CommandObject)
  | showHelp | clearMessages | requestUsers | requestChannels
  /-- `setTimeout(requestChannels, 100)`. -/
  | requestChannelsLater
  | logout
  /-- `await refreshStats()`, and then a line. -/
  | refreshStats (line : PyStr)
  | loadHistory
  deriving DecidableEq

/-- `handleSlashCommand`. -/
def handleSlashCommand (input : PyStr) : List Action :=
  match splitSpaces input.tail with
  | [] => []
  | command :: parts =>
    .setError [] ::
      if command = py "help" then [.showHelp]
      else if command = py "clear" then [.clearMessages]
      else if command = py "join" ∨ command = py "switch" ∨ command = py "leave" then
        let channel := parts.headD []
        if channel = [] then [.setError (py "Enter a channel name after /" ++ command ++ py ".")]
        else
          [.setChannel channel, .send (.channelCommand command channel)] ++
            if command = py "join" then [.requestChannelsLater] else []
      else if command = py "dm" then
        if parts.headD [] = [] ∨ parts.tail.headD [] = [] then
          [.setError (py "Enter a username and message to send a direct message.")]
        else [.send (.dm (parts.headD []) ([0x20].intercalate parts.tail))]
      else if command = py "who" then [.requestUsers]
      else if command = py "list" then [.requestChannels]
      else if command = py "quit" then [.logout]
      else if command = py "stats" then [.refreshStats (py "Monitoring updated.")]
      else if command = py "history" then [.loadHistory]
      else [.setError (py "Command not recognized: /" ++ command ++
        py ". Use /help to view commands.")]

/-- `sendChat`. -/
def sendChat (message : PyStr) : List Action :=
  let text := jsTrim message
  if text = [] then [.setError (py "Enter a message or use /help.")]
  else
    .setMessage [] ::
      if (py "/").isPrefixOf text then handleSlashCommand text else [.send (.say text)]

/-- `/^[A-Za-z0-9_.-]{1,32}$/`. -/
def recipientPattern : Pattern Utf8.CodePoint :=
  .anchored (.rep 1 (some 32) (.cls Gateway.isNameChar))

theorem searches_recipientPattern {s : PyStr} :
    Searches recipientPattern s ↔ Gateway.isName s = true :=
  searches_anchored_iff.trans Gateway.targetAccepted_iff

instance (s : PyStr) : Decidable (Searches recipientPattern s) :=
  decidable_of_iff (Gateway.isName s = true) searches_recipientPattern.symm

/-- `sendDirect`. -/
def sendDirect (dmTo dmText : PyStr) : List Action :=
  let recipient := jsTrim dmTo
  let text := jsTrim dmText
  if recipient = [] then [.setError (py "Enter a username.")]
  else if text = [] then [.setError (py "Enter a message.")]
  else if ¬ Searches recipientPattern recipient then
    [.setError (py "User not found. Check the username and try again.")]
  else [.setError [], .send (.dm recipient text), .setDmText []]

/-- The command objects that are sent. -/
def sends (actions : List Action) : List CommandObject :=
  actions.filterMap fun
    | .send command => some command
    | _ => none

variable {r t : PyStr}

/-! ## Recipients and texts -/

theorem isJsSpace_of_isNameChar {c : Utf8.CodePoint} (h : Gateway.isNameChar c = true) :
    isJsSpace c = false := by
  simp only [Gateway.isNameChar, Bool.or_eq_true, Bool.and_eq_true, decide_eq_true_eq,
    beq_iff_eq] at h
  simp only [isJsSpace, Bool.or_eq_false_iff, Bool.and_eq_false_iff, decide_eq_false_iff_not,
    beq_eq_false_iff_ne]
  omega

theorem isJsSpace_of_isName (h : Gateway.isName r = true) : ∀ c ∈ r, isJsSpace c = false :=
  fun c hc => isJsSpace_of_isNameChar ((Gateway.isName_iff.mp h).2.2 c hc)

theorem ne_nil_of_isName (h : Gateway.isName r = true) : r ≠ [] :=
  List.ne_nil_of_length_pos (Gateway.isName_iff.mp h).1

/-- **The form sends the trimmed text.** -/
theorem sendDirect_eq (hr : Searches recipientPattern r) (ht : ∃ c ∈ t, isJsSpace c = false) :
    sends (sendDirect r t) = [.dm r (jsTrim t)] := by
  have hname := searches_recipientPattern.mp hr
  have htrim : jsTrim r = r := trim_eq_self (isJsSpace_of_isName hname)
  have htext : jsTrim t ≠ [] := trim_ne_nil ht
  unfold sendDirect
  simp only [htrim]
  rw [if_neg (ne_nil_of_isName hname), if_neg htext, if_neg (not_not.mpr hr)]
  rfl

/-- The words of a trimmed `/dm`. -/
theorem splitSpaces_dm (hr : Gateway.isName r = true) (ht : ∃ c ∈ t, isJsSpace c = false) :
    splitSpaces (jsTrim (py "/dm " ++ r ++ py " " ++ t)).tail =
      py "dm" :: r :: splitSpaces (jsTrim t) := by
  have htext : jsTrim (py "/dm " ++ r ++ py " " ++ t) =
      py "/dm " ++ r ++ py " " ++ (t.takeWhile isJsSpace ++ jsTrim t) :=
    trim_append (fun c hc => (Option.some.inj hc) ▸ (by decide)) (List.cons_ne_nil _ _) ht
  have htail : (py "/dm " ++ r ++ py " " ++ (t.takeWhile isJsSpace ++ jsTrim t)).tail =
      py "dm" ++ (py " " ++ (r ++ ((py " " ++ t.takeWhile isJsSpace) ++ jsTrim t))) := by
    have hslash : py "/dm " = 0x2F :: (py "dm" ++ py " ") := by decide
    rw [hslash]
    simp only [List.cons_append, List.tail_cons, List.append_assoc]
  have hspace : ∀ c ∈ py " " ++ t.takeWhile isJsSpace, isJsSpace c = true := by
    intro c hc
    rcases List.mem_append.mp hc with hc | hc
    · obtain rfl := List.mem_singleton.mp hc
      decide
    · exact List.mem_takeWhile_imp hc
  have hrest := splitRuns_word_run (isJsSpace_of_isName hr) hspace (List.cons_ne_nil _ _)
    (startsBlank_trim ht)
  have hstart : startsBlank isJsSpace
      (r ++ ((py " " ++ t.takeWhile isJsSpace) ++ jsTrim t)) = false := by
    obtain ⟨c, r, rfl⟩ := List.exists_cons_of_ne_nil (ne_nil_of_isName hr)
    exact isJsSpace_of_isName hr c List.mem_cons_self
  have hdm : ∀ c ∈ py "dm", isJsSpace c = false := by
    intro c hc
    have hall : (py "dm").all (!isJsSpace ·) = true := by decide
    exact Bool.not_eq_true' _ ▸ List.all_eq_true.mp hall c hc
  have hblank : ∀ c ∈ py " ", isJsSpace c = true :=
    List.all_eq_true.mp (by decide : (py " ").all isJsSpace = true)
  rw [htext, htail, splitSpaces, splitRuns_word_run hdm hblank (List.cons_ne_nil _ _) hstart]
  exact congrArg _ hrest

/-- **The command sends the text with one space for every run of white space.** -/
theorem sendChat_dm (hr : Searches recipientPattern r) (ht : ∃ c ∈ t, isJsSpace c = false) :
    sends (sendChat (py "/dm " ++ r ++ py " " ++ t)) =
      [.dm r ([0x20].intercalate (splitSpaces (jsTrim t)))] := by
  have hname := searches_recipientPattern.mp hr
  have hwords := splitSpaces_dm hname ht
  obtain ⟨piece, pieces, hpieces, hpiece⟩ :=
    exists_splitRuns (startsBlank_trim ht) (trim_ne_nil ht)
  have hpieces' : splitSpaces (jsTrim t) = piece :: pieces := hpieces
  have htext : jsTrim (py "/dm " ++ r ++ py " " ++ t) =
      0x2F :: (py "dm " ++ r ++ py " " ++ (t.takeWhile isJsSpace ++ jsTrim t)) :=
    trim_append (fun c hc => (Option.some.inj hc) ▸ (by decide)) (List.cons_ne_nil _ _) ht
  have hslash : (py "/").isPrefixOf (jsTrim (py "/dm " ++ r ++ py " " ++ t)) = true := by
    rw [htext]
    rfl
  have hparts : ¬ ((r :: piece :: pieces).headD [] = [] ∨
      (r :: piece :: pieces).tail.headD [] = []) := by
    rintro (h | h)
    · exact ne_nil_of_isName hname h
    · exact hpiece h
  have hcommand : handleSlashCommand (jsTrim (py "/dm " ++ r ++ py " " ++ t)) =
      [.setError [], .send (.dm r ([0x20].intercalate (piece :: pieces)))] := by
    unfold handleSlashCommand
    rw [hwords, hpieces']
    simp only
    rw [if_neg (by decide), if_neg (by decide), if_neg (by decide), if_pos trivial,
      if_neg hparts]
    rfl
  unfold sendChat
  simp only
  rw [if_neg (by rw [htext]; exact List.cons_ne_nil _ _), if_pos hslash, hcommand, hpieces']
  rfl

/-- **The command and the form send the same direct message** if and only if every run of white
space inside the trimmed text is one space. -/
theorem dm_forms_agree_iff (hr : Searches recipientPattern r) (ht : ∃ c ∈ t, isJsSpace c = false) :
    sends (sendChat (py "/dm " ++ r ++ py " " ++ t)) = [.dm r (jsTrim t)] ∧
        sends (sendDirect r t) = [.dm r (jsTrim t)] ↔
      SingleBlanks isJsSpace 0x20 (jsTrim t) := by
  rw [sendChat_dm hr ht, sendDirect_eq hr ht, List.cons.injEq, CommandObject.dm.injEq]
  constructor
  · rintro ⟨⟨⟨-, htext⟩, -⟩, -⟩
    exact (intercalate_splitRuns_eq_iff _).mp htext
  · intro h
    exact ⟨⟨⟨rfl, (intercalate_splitRuns_eq_iff _).mpr h⟩, rfl⟩, rfl⟩

/-- The two ways to send a text with two spaces inside. -/
theorem dm_forms_agree_iff_of_words :
    sends (sendChat (py "/dm " ++ py "bob" ++ py " " ++ py "hi  there")) =
          [.dm (py "bob") (jsTrim (py "hi  there"))] ∧
        sends (sendDirect (py "bob") (py "hi  there")) =
          [.dm (py "bob") (jsTrim (py "hi  there"))] ↔
      SingleBlanks isJsSpace 0x20 (jsTrim (py "hi  there")) :=
  dm_forms_agree_iff (searches_recipientPattern.mpr (by decide)) ⟨0x68, by decide, by decide⟩

/-- Two spaces inside a text are sent by the form, and as one by the command. -/
theorem dm_of_two_spaces :
    ¬ ∀ r t : PyStr, Searches recipientPattern r → (∃ c ∈ t, isJsSpace c = false) →
      sends (sendChat (py "/dm " ++ r ++ py " " ++ t)) = [.dm r (jsTrim t)] ∧
        sends (sendDirect r t) = [.dm r (jsTrim t)] := by
  intro h
  have hcommand := (h (py "bob") (py "hi  there") (searches_recipientPattern.mpr (by decide))
    ⟨0x68, by decide, by decide⟩).1
  have hsent : sends (sendChat (py "/dm " ++ py "bob" ++ py " " ++ py "hi  there")) =
      [.dm (py "bob") (py "hi there")] := by decide +kernel
  rw [hsent] at hcommand
  exact absurd hcommand (by decide)

end Frontend
end ChannelWire
