import ChannelWire.Foundation.LastEntries
import ChannelWire.Gateway.Database

/-!
# The pages of the history

`channel_history` and `direct_history` read the table `messages` by a filter, `ORDER BY id DESC`
and a limit, and turn the result around.  Here the rows have their `id`, the primary key, and
stand in any order.

A page is the last page of its conversation in the order of the ids (`isLast_channelHistory`,
`isLast_directHistory`), wherever the rows stand.  `directHistory_comm` says that both users of a
conversation read the same.
-/

namespace ChannelWire
namespace Gateway

open LastEntries

/-- A row of `messages` with its primary key. -/
structure MessageRow extends Message where
  id : ℤ
  deriving DecidableEq

/-- The table `messages`: rows with distinct ids. -/
structure MessageTable where
  rows : List MessageRow
  nodup : (rows.map MessageRow.id).Nodup

/-- A message of a channel. -/
def InChannel (channelName : PyStr) (row : MessageRow) : Prop :=
  row.kind = .channel ∧ row.channelName = some channelName

/-- A direct message of one of two users to the other. -/
def Between (username otherUsername : PyStr) (row : MessageRow) : Prop :=
  row.kind = .dm ∧
    (row.sender = username ∧ row.recipient = some otherUsername ∨
      row.sender = otherUsername ∧ row.recipient = some username)

instance (channelName : PyStr) : DecidablePred (InChannel channelName) := fun row =>
  inferInstanceAs (Decidable (row.kind = .channel ∧ row.channelName = some channelName))

instance (username otherUsername : PyStr) : DecidablePred (Between username otherUsername) :=
  fun row => inferInstanceAs (Decidable (row.kind = .dm ∧
    (row.sender = username ∧ row.recipient = some otherUsername ∨
      row.sender = otherUsername ∧ row.recipient = some username)))

theorem between_comm (u v : PyStr) (row : MessageRow) : Between u v row ↔ Between v u row :=
  and_congr_right fun _ => or_comm

/-- Nobody else takes part in a conversation. -/
theorem Between.participants {u v : PyStr} {row : MessageRow} (h : Between u v row) :
    row.kind ≠ .channel ∧ (row.sender = u ∨ row.sender = v) ∧
      (row.recipient = some u ∨ row.recipient = some v) := by
  obtain ⟨hkind, ⟨hs, hr⟩ | ⟨hs, hr⟩⟩ := h
  · exact ⟨hkind ▸ MessageKind.noConfusion, Or.inl hs, Or.inr hr⟩
  · exact ⟨hkind ▸ MessageKind.noConfusion, Or.inr hs, Or.inl hr⟩

namespace MessageTable

/-- `channel_history`. -/
def channelHistory (table : MessageTable) (channelName : PyStr) (limit : ℕ) : List MessageRow :=
  lastEntries MessageRow.id (InChannel channelName) limit table.rows

/-- `direct_history`. -/
def directHistory (table : MessageTable) (username otherUsername : PyStr) (limit : ℕ) :
    List MessageRow :=
  lastEntries MessageRow.id (Between username otherUsername) limit table.rows

/-- A message as `GET /history/{channel_name}` and `GET /history/dm/{other_username}` give it. -/
structure Entry where
  id : ℤ
  sender : PyStr
  recipient : Option PyStr
  text : PyStr

/-- The entry was made of the row; no two rows have one id. -/
structure Entry.Of (entry : Entry) (row : MessageRow) : Prop where
  id : entry.id = row.id
  sender : entry.sender = row.sender
  text : entry.text = row.body

/-- `history`; `none` stands for the 422. -/
def history (table : MessageTable) (channelName : PyStr) (limit : ℕ) : Option (List Entry) :=
  if 1 ≤ limit ∧ limit ≤ 200 then
    some ((table.channelHistory channelName limit).map fun m => ⟨m.id, m.sender, none, m.body⟩)
  else none

/-- `dm_history` for the user of the token; `none` stands for the 422. -/
def dmHistory (table : MessageTable) (username otherUsername : PyStr) (limit : ℕ) :
    Option (List Entry) :=
  if 1 ≤ limit ∧ limit ≤ 200 then
    some ((table.directHistory username otherUsername limit).map fun m =>
      ⟨m.id, m.sender, m.recipient, m.body⟩)
  else none

variable {table : MessageTable} {u v : PyStr} {limit : ℕ}

theorem isLast_channelHistory (table : MessageTable) (channelName : PyStr) (limit : ℕ) :
    IsLast MessageRow.id (InChannel channelName) table.rows limit
      (table.channelHistory channelName limit) :=
  isLast_lastEntries table.nodup limit

theorem isLast_directHistory (table : MessageTable) (u v : PyStr) (limit : ℕ) :
    IsLast MessageRow.id (Between u v) table.rows limit (table.directHistory u v limit) :=
  isLast_lastEntries table.nodup limit

/-- **Both users of a conversation read the same.** -/
theorem directHistory_comm (table : MessageTable) (u v : PyStr) (limit : ℕ) :
    table.directHistory u v limit = table.directHistory v u limit :=
  lastEntries_congr (between_comm u v)

/-- An answer of `history` shows rows of the channel. -/
theorem mem_history {channelName : PyStr} {entries : List Entry}
    (h : table.history channelName limit = some entries) {entry : Entry} (hentry : entry ∈ entries) :
    ∃ row ∈ table.rows, entry.Of row ∧ InChannel channelName row := by
  unfold history at h
  split_ifs at h
  obtain rfl := Option.some.inj h
  obtain ⟨row, hrow, rfl⟩ := List.mem_map.mp hentry
  obtain ⟨hmem, hin⟩ := (isLast_channelHistory table channelName limit).entries row hrow
  exact ⟨row, hmem, ⟨rfl, rfl, rfl⟩, hin⟩

/-- An answer of `dm_history` shows rows between the user of the token and the other one. -/
theorem mem_dmHistory {entries : List Entry} (h : table.dmHistory u v limit = some entries)
    {entry : Entry} (hentry : entry ∈ entries) :
    ∃ row ∈ table.rows, entry.Of row ∧ Between u v row := by
  unfold dmHistory at h
  split_ifs at h
  obtain rfl := Option.some.inj h
  obtain ⟨row, hrow, rfl⟩ := List.mem_map.mp hentry
  obtain ⟨hmem, hbetween⟩ := (isLast_directHistory table u v limit).entries row hrow
  exact ⟨row, hmem, ⟨rfl, rfl, rfl⟩, hbetween⟩

/-! ## Rows in the order of their insertion -/

/-- The messages in the order of their ids. -/
def messages (table : MessageTable) : List Message :=
  (lastEntries MessageRow.id (fun _ => True) table.rows.length table.rows).map
    MessageRow.toMessage

end MessageTable

/-- **A page of the history is the end of its conversation.**  A page of a channel or of two users
lists the last messages of theirs in the order of the ids, and a shorter page is the end of a
longer one.  Both users read the same, and nothing of a channel or of somebody else. -/
theorem history_pages (table : MessageTable) (channelName u v : PyStr) {m n : ℕ}
    (hmn : m ≤ n) :
    IsLast MessageRow.id (InChannel channelName) table.rows n
        (table.channelHistory channelName n) ∧
      IsLast MessageRow.id (Between u v) table.rows n (table.directHistory u v n) ∧
      table.directHistory u v n = table.directHistory v u n ∧
      table.channelHistory channelName m <:+ table.channelHistory channelName n ∧
      table.directHistory u v m <:+ table.directHistory u v n ∧
      ∀ row ∈ table.directHistory u v n, row.kind ≠ .channel ∧
        (row.sender = u ∨ row.sender = v) ∧ (row.recipient = some u ∨ row.recipient = some v) :=
  ⟨table.isLast_channelHistory channelName n, table.isLast_directHistory u v n,
    table.directHistory_comm u v n, lastEntries_suffix hmn, lastEntries_suffix hmn,
    fun row hrow => ((table.isLast_directHistory u v n).entries row hrow).2.participants⟩

/-- The pages of a table with a message of a channel between two direct messages. -/
theorem history_pages_of_table :
    let table : MessageTable := ⟨[⟨⟨.dm, py "bob", none, some (py "ada"), py "hi"⟩, 3⟩,
      ⟨⟨.dm, py "ada", none, some (py "bob"), py "hello"⟩, 1⟩,
      ⟨⟨.channel, py "ada", some (py "lobby"), none, py "all"⟩, 2⟩], by decide⟩
    table.directHistory (py "ada") (py "bob") 1 <:+
      table.directHistory (py "ada") (py "bob") 2 :=
  (history_pages _ (py "lobby") (py "ada") (py "bob") (Nat.le_succ 1)).2.2.2.2.1

end Gateway
end ChannelWire
