import ChannelWire.Gateway.PyString
import Mathlib.Data.List.Nodup

/-!
# The database of the gateway

The tables of `gateway/app/db.py` and the functions that write to them.  Rows stand in the order
of their insertion, which is the order of the `id` of memberships and messages; `created_at` is
left out.

The session maker has `autoflush=False`: what a session adds is written by `commit` only, and
until then `Session.get` and `select` see the committed rows and not the added ones
(`Transaction`).  A `Database` is one whose tables keep their constraints, so a commit that would
break one has no result.
-/

namespace ChannelWire
namespace Gateway

/-- A row of `users`. -/
structure User where
  username : PyStr
  passwordHash : Option PyStr
  deriving DecidableEq

/-- A row of `memberships`. -/
structure Membership where
  username : PyStr
  channelName : PyStr
  deriving DecidableEq

/-- The column `kind` of `messages`. -/
inductive MessageKind where
  | channel | dm
  deriving DecidableEq

/-- A row of `messages`. -/
structure Message where
  kind : MessageKind
  sender : PyStr
  channelName : Option PyStr
  recipient : Option PyStr
  body : PyStr
  deriving DecidableEq

/-- Rows of the four tables. -/
structure Tables where
  users : List User
  channels : List PyStr
  memberships : List Membership
  messages : List Message
  deriving DecidableEq

namespace Tables

/-- No rows. -/
def empty : Tables := ⟨[], [], [], []⟩

/-- The rows of `t`, then those of `new`. -/
def append (t new : Tables) : Tables :=
  ⟨t.users ++ new.users, t.channels ++ new.channels, t.memberships ++ new.memberships,
    t.messages ++ new.messages⟩

/-- The user names in `users`. -/
def usernames (t : Tables) : List PyStr := t.users.map User.username

/-- The primary keys of `users` and `channels`, `uq_membership_user_channel`, and the foreign keys
of `memberships` and `messages`. -/
structure Consistent (t : Tables) : Prop where
  users : t.usernames.Nodup
  channels : t.channels.Nodup
  memberships : t.memberships.Nodup
  members : ∀ m ∈ t.memberships, m.username ∈ t.usernames ∧ m.channelName ∈ t.channels
  messages : ∀ m ∈ t.messages, m.sender ∈ t.usernames ∧
    (∀ c ∈ m.channelName.toList, c ∈ t.channels) ∧ ∀ r ∈ m.recipient.toList, r ∈ t.usernames

instance (t : Tables) : Decidable t.Consistent :=
  decidable_of_iff (t.usernames.Nodup ∧ t.channels.Nodup ∧ t.memberships.Nodup ∧
    (∀ m ∈ t.memberships, m.username ∈ t.usernames ∧ m.channelName ∈ t.channels) ∧
    ∀ m ∈ t.messages, m.sender ∈ t.usernames ∧
      (∀ c ∈ m.channelName.toList, c ∈ t.channels) ∧ ∀ r ∈ m.recipient.toList, r ∈ t.usernames)
    ⟨fun ⟨hu, hc, hm, hf, hg⟩ => ⟨hu, hc, hm, hf, hg⟩, fun ⟨hu, hc, hm, hf, hg⟩ =>
      ⟨hu, hc, hm, hf, hg⟩⟩

end Tables

/-- The committed rows. -/
structure Database extends Tables where
  consistent : toTables.Consistent

/-- A SQLAlchemy session: the rows its queries see, and those it has added. -/
structure Transaction where
  committed : Database
  added : Tables

/-- `session_scope`. -/
def sessionScope (db : Database) : Transaction := ⟨db, .empty⟩

namespace Transaction

/-- `db.add` of a `User`. -/
def addUser (tx : Transaction) (user : User) : Transaction :=
  { tx with added := { tx.added with users := tx.added.users ++ [user] } }

/-- `db.add` of a `Message`. -/
def addMessage (tx : Transaction) (message : Message) : Transaction :=
  { tx with added := { tx.added with messages := tx.added.messages ++ [message] } }

/-- `upsert_user`. -/
def upsertUser (tx : Transaction) (username : PyStr) : Transaction :=
  if username ∈ tx.committed.usernames then tx else tx.addUser ⟨username, none⟩

/-- `create_user`; `none` stands for the `ValueError`. -/
def createUser (tx : Transaction) (username passwordHash : PyStr) : Option Transaction :=
  if username ∈ tx.committed.usernames then none
  else some (tx.addUser ⟨username, some passwordHash⟩)

/-- `ensure_channel`. -/
def ensureChannel (tx : Transaction) (channelName : PyStr) : Transaction :=
  if channelName ∈ tx.committed.channels then tx
  else { tx with added := { tx.added with channels := tx.added.channels ++ [channelName] } }

/-- `add_membership`. -/
def addMembership (tx : Transaction) (username channelName : PyStr) : Transaction :=
  let tx := tx.upsertUser username
  let tx := tx.ensureChannel channelName
  if ⟨username, channelName⟩ ∈ tx.committed.memberships then tx
  else { tx with added := { tx.added with
    memberships := tx.added.memberships ++ [⟨username, channelName⟩] } }

/-- `save_channel_message`. -/
def saveChannelMessage (tx : Transaction) (channelName sender body : PyStr) : Transaction :=
  (tx.addMembership sender channelName).addMessage ⟨.channel, sender, some channelName, none, body⟩

/-- `save_dm`. -/
def saveDm (tx : Transaction) (sender recipient body : PyStr) : Transaction :=
  ((tx.upsertUser sender).upsertUser recipient).addMessage ⟨.dm, sender, none, some recipient, body⟩

/-- `db.commit`; `none` stands for the `IntegrityError`. -/
def commit (tx : Transaction) : Option Database :=
  if h : (tx.committed.append tx.added).Consistent then some ⟨_, h⟩ else none

@[simp] theorem upsertUser_messages (tx : Transaction) (username : PyStr) :
    (tx.upsertUser username).added.messages = tx.added.messages := by
  unfold upsertUser
  split_ifs <;> rfl

@[simp] theorem ensureChannel_messages (tx : Transaction) (channelName : PyStr) :
    (tx.ensureChannel channelName).added.messages = tx.added.messages := by
  unfold ensureChannel
  split_ifs <;> rfl

@[simp] theorem addMembership_messages (tx : Transaction) (username channelName : PyStr) :
    (tx.addMembership username channelName).added.messages = tx.added.messages := by
  have htx := (ensureChannel_messages (tx.upsertUser username) channelName).trans
    (upsertUser_messages tx username)
  unfold addMembership
  simp only
  split_ifs <;> exact htx

/-- **A text is stored as one row.** -/
theorem saveChannelMessage_messages (db : Database) (channelName sender body : PyStr) :
    ((sessionScope db).saveChannelMessage channelName sender body).added.messages =
      [⟨.channel, sender, some channelName, none, body⟩] := by
  show ((sessionScope db).addMembership sender channelName).added.messages ++ _ = _
  rw [addMembership_messages]
  rfl

/-- **A direct message is stored as one row.** -/
theorem saveDm_messages (db : Database) (sender recipient body : PyStr) :
    ((sessionScope db).saveDm sender recipient body).added.messages =
      [⟨.dm, sender, none, some recipient, body⟩] := by
  show (((sessionScope db).upsertUser sender).upsertUser recipient).added.messages ++ _ = _
  rw [upsertUser_messages, upsertUser_messages]
  rfl

/-! ### What is added -/

/-- The entry that makes `a` an element of `l`, if it is none. -/
def missing {α : Type*} [DecidableEq α] (l : List α) (a : α) : List α := if a ∈ l then [] else [a]

section Missing

variable {α : Type*} [DecidableEq α] {l : List α} {a b : α}

theorem mem_append_missing (l : List α) (a : α) : a ∈ l ++ missing l a := by
  unfold missing
  split_ifs with h
  · exact List.mem_append_left _ h
  · exact List.mem_append_right _ (List.mem_singleton_self a)

theorem nodup_append_missing (h : l.Nodup) (a : α) : (l ++ missing l a).Nodup := by
  unfold missing
  split_ifs with hmem
  · rwa [List.append_nil]
  · refine List.nodup_append.mpr ⟨h, List.nodup_singleton a, fun x hx y hy hxy => hmem ?_⟩
    rw [← List.mem_singleton.mp hy, ← hxy]
    exact hx

theorem mem_missing (h : b ∈ missing l a) : b = a ∧ a ∉ l := by
  unfold missing at h
  split_ifs at h with hmem
  · cases h
  · exact ⟨List.mem_singleton.mp h, hmem⟩

end Missing

/-- The row `upsert_user` adds. -/
def newUser (db : Database) (username : PyStr) : List User :=
  (missing db.usernames username).map (⟨·, none⟩)

theorem usernames_newUser (db : Database) (username : PyStr) :
    (newUser db username).map User.username = missing db.usernames username := by
  rw [newUser, List.map_map]
  exact List.map_id _

theorem addMembership_added (db : Database) (username channelName : PyStr) :
    ((sessionScope db).addMembership username channelName).added =
      ⟨newUser db username, missing db.channels channelName,
        missing db.memberships ⟨username, channelName⟩, []⟩ := by
  unfold addMembership ensureChannel upsertUser newUser missing sessionScope addUser
  simp only
  split_ifs <;> rfl

theorem addMembership_committed (tx : Transaction) (username channelName : PyStr) :
    (tx.addMembership username channelName).committed = tx.committed := by
  unfold addMembership ensureChannel upsertUser addUser
  simp only
  split_ifs <;> rfl

theorem saveChannelMessage_added (db : Database) (channelName sender body : PyStr) :
    ((sessionScope db).saveChannelMessage channelName sender body).added =
      ⟨newUser db sender, missing db.channels channelName,
        missing db.memberships ⟨sender, channelName⟩,
        [⟨.channel, sender, some channelName, none, body⟩]⟩ := by
  unfold saveChannelMessage addMessage
  rw [addMembership_added]
  rfl

theorem saveDm_added (db : Database) (sender recipient body : PyStr) :
    ((sessionScope db).saveDm sender recipient body).added =
      ⟨newUser db sender ++ newUser db recipient, [], [],
        [⟨.dm, sender, none, some recipient, body⟩]⟩ := by
  unfold saveDm addMessage upsertUser newUser missing sessionScope addUser
  split_ifs <;> rfl

/-! ### Commits -/

/-- A commit adds what was added. -/
theorem commit_tables {tx : Transaction} {db : Database} (h : tx.commit = some db) :
    db.toTables = tx.committed.append tx.added := by
  unfold commit at h
  split_ifs at h with hc
  rw [← Option.some.inj h]

/-- The messages of the old rows refer to rows that are still there. -/
theorem messages_append {db : Database} {users : List User} {channels : List PyStr}
    {messages : List Message} (h : ∀ m ∈ messages,
      m.sender ∈ db.usernames ++ users.map User.username ∧
      (∀ c ∈ m.channelName.toList, c ∈ db.channels ++ channels) ∧
      ∀ r ∈ m.recipient.toList, r ∈ db.usernames ++ users.map User.username) :
    ∀ m ∈ db.messages ++ messages, m.sender ∈ db.usernames ++ users.map User.username ∧
      (∀ c ∈ m.channelName.toList, c ∈ db.channels ++ channels) ∧
      ∀ r ∈ m.recipient.toList, r ∈ db.usernames ++ users.map User.username := by
  intro m hm
  rcases List.mem_append.mp hm with hm | hm
  · obtain ⟨hs, hc, hr⟩ := db.consistent.messages m hm
    exact ⟨List.mem_append_left _ hs, fun c hmem => List.mem_append_left _ (hc c hmem),
      fun r hmem => List.mem_append_left _ (hr r hmem)⟩
  · exact h m hm

/-- **The rows of a membership keep the constraints**, with messages of its user and channel. -/
theorem consistent_addMembership (db : Database) (username channelName : PyStr)
    {messages : List Message} (h : ∀ m ∈ messages, m.sender = username ∧
      (∀ c ∈ m.channelName.toList, c = channelName) ∧ m.recipient = none) :
    (db.append ⟨newUser db username, missing db.channels channelName,
      missing db.memberships ⟨username, channelName⟩, messages⟩).Consistent := by
  have husers : (db.append ⟨newUser db username, missing db.channels channelName,
      missing db.memberships ⟨username, channelName⟩, messages⟩).usernames =
        db.usernames ++ (newUser db username).map User.username := List.map_append
  have hnew := usernames_newUser db username
  constructor
  · rw [husers, hnew]
    exact nodup_append_missing db.consistent.users username
  · exact nodup_append_missing db.consistent.channels channelName
  · exact nodup_append_missing db.consistent.memberships _
  · rw [husers, hnew]
    intro m hm
    rcases List.mem_append.mp hm with hm | hm
    · obtain ⟨hu, hc⟩ := db.consistent.members m hm
      exact ⟨List.mem_append_left _ hu, List.mem_append_left _ hc⟩
    · obtain ⟨rfl, -⟩ := mem_missing hm
      exact ⟨mem_append_missing .., mem_append_missing ..⟩
  · rw [husers]
    refine messages_append fun m hm => ?_
    obtain ⟨rfl, hc, hr⟩ := h m hm
    rw [hnew, hr]
    refine ⟨mem_append_missing .., fun c hmem => ?_, fun r hmem => (by cases hmem)⟩
    rw [hc c hmem]
    exact mem_append_missing ..

/-- **The row of a direct message keeps the constraints**, if its users differ or are known. -/
theorem consistent_saveDm (db : Database) {sender recipient : PyStr} (body : PyStr)
    (h : sender = recipient → sender ∈ db.usernames) :
    (db.append ⟨newUser db sender ++ newUser db recipient, [], [],
      [⟨.dm, sender, none, some recipient, body⟩]⟩).Consistent := by
  have husers : (db.append ⟨newUser db sender ++ newUser db recipient, [], [],
      [⟨.dm, sender, none, some recipient, body⟩]⟩).usernames =
        db.usernames ++ (newUser db sender ++ newUser db recipient).map User.username :=
    List.map_append
  have hnew : (newUser db sender ++ newUser db recipient).map User.username =
      missing db.usernames sender ++ missing db.usernames recipient := by
    rw [List.map_append, usernames_newUser, usernames_newUser]
  constructor
  · rw [husers, hnew, ← List.append_assoc]
    have hsender := nodup_append_missing db.consistent.users sender
    have hrecipient := nodup_append_missing db.consistent.users recipient
    refine List.nodup_append.mpr ⟨hsender, (List.nodup_append.mp hrecipient).2.1,
      fun a ha b hb hab => ?_⟩
    -- a new recipient is neither an old user nor the sender
    obtain ⟨rfl, hold⟩ := mem_missing hb
    subst hab
    rcases List.mem_append.mp ha with ha | ha
    · exact hold ha
    · obtain ⟨rfl, hs⟩ := mem_missing ha
      exact hs (h rfl)
  · show (db.channels ++ []).Nodup
    rw [List.append_nil]
    exact db.consistent.channels
  · show (db.memberships ++ []).Nodup
    rw [List.append_nil]
    exact db.consistent.memberships
  · rw [husers]
    intro m hm
    obtain ⟨hu, hc⟩ := db.consistent.members m (List.append_nil db.memberships ▸ hm)
    exact ⟨List.mem_append_left _ hu, List.mem_append_left _ hc⟩
  · rw [husers]
    refine messages_append fun m hm => ?_
    obtain rfl := List.mem_singleton.mp hm
    rw [hnew]
    refine ⟨?_, fun c hmem => (by cases hmem), fun r hmem => ?_⟩
    · rw [← List.append_assoc]
      exact List.mem_append_left _ (mem_append_missing ..)
    · rw [List.mem_singleton.mp hmem]
      refine (List.mem_append.mp (mem_append_missing db.usernames recipient)).elim
        (List.mem_append_left _) fun hr => ?_
      exact List.mem_append_right _ (List.mem_append_right _ hr)

theorem commit_of_consistent {tx : Transaction} (h : (tx.committed.append tx.added).Consistent) :
    ∃ db, tx.commit = some db := ⟨_, dif_pos h⟩

/-- **A membership can always be stored.** -/
theorem addMembership_commits (db : Database) (username channelName : PyStr) :
    ∃ db', ((sessionScope db).addMembership username channelName).commit = some db' := by
  refine commit_of_consistent ?_
  rw [addMembership_added, addMembership_committed]
  exact consistent_addMembership db username channelName fun m hm => absurd hm List.not_mem_nil

/-- **A text can always be stored.** -/
theorem saveChannelMessage_commits (db : Database) (channelName sender body : PyStr) :
    ∃ db', ((sessionScope db).saveChannelMessage channelName sender body).commit = some db' := by
  refine commit_of_consistent ?_
  rw [saveChannelMessage_added]
  show (((sessionScope db).addMembership sender channelName).committed.append _).Consistent
  rw [addMembership_committed]
  refine consistent_addMembership db sender channelName fun m hm => ?_
  obtain rfl := List.mem_singleton.mp hm
  exact ⟨rfl, fun c hc => List.mem_singleton.mp hc, rfl⟩

theorem saveDm_committed (db : Database) (sender recipient body : PyStr) :
    ((sessionScope db).saveDm sender recipient body).committed = db := by
  unfold saveDm upsertUser
  split_ifs <;> rfl

/-- **A direct message between two users can always be stored.** -/
theorem saveDm_commits (db : Database) {sender recipient : PyStr} (body : PyStr)
    (h : sender = recipient → sender ∈ db.usernames) :
    ∃ db', ((sessionScope db).saveDm sender recipient body).commit = some db' := by
  refine commit_of_consistent ?_
  rw [saveDm_added, saveDm_committed]
  exact consistent_saveDm db body h

end Transaction

/-- `channel_history`: the last rows of the channel, the oldest first. -/
def channelHistory (db : Database) (channelName : PyStr) (limit : ℕ) : List Message :=
  ((db.messages.filter fun m => m.kind = .channel ∧ m.channelName = some channelName).reverse.take
    limit).reverse

/-- The database part of `POST /auth/dev-token`. -/
def devToken (db : Database) (username : PyStr) : Option Database :=
  ((sessionScope db).upsertUser username).commit

/-- The database part of `POST /auth/register`. -/
def register (db : Database) (username passwordHash : PyStr) : Option Database :=
  ((sessionScope db).createUser username passwordHash).bind Transaction.commit

end Gateway
end ChannelWire
