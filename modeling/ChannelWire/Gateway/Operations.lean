import ChannelWire.Foundation.Transition
import ChannelWire.Gateway.Database

/-!
# The operations on the database

The functions of `gateway/app/db.py` that write, each in a session of its own that is then
committed (`DbOp.run`).  They look whether a row exists and add what is missing, so what they add
keeps the unique constraint of `memberships` and all foreign keys, whether the database checks them
or not (`DbOp.consistent`); only two rows of one new user, for a message to oneself, can break the
primary key of `users`.

Rows are never changed or deleted, and the database numbers messages as they come.
-/

namespace ChannelWire
namespace Gateway

open Transaction

/-- A call of a function of `db.py` that writes. -/
inductive DbOp where
  | upsertUser (username : PyStr)
  | createUser (username passwordHash : PyStr)
  | addMembership (username channelName : PyStr)
  | saveChannelMessage (channelName sender body : PyStr)
  | saveDm (sender recipient body : PyStr)
  deriving DecidableEq

namespace DbOp

/-- What the function adds to a session; `none` stands for the `ValueError` of `create_user`. -/
def apply (tx : Transaction) : DbOp → Option Transaction
  | upsertUser username => some (tx.upsertUser username)
  | createUser username passwordHash => tx.createUser username passwordHash
  | addMembership username channelName => some (tx.addMembership username channelName)
  | saveChannelMessage channelName sender body => some (tx.saveChannelMessage channelName sender body)
  | saveDm sender recipient body => some (tx.saveDm sender recipient body)

/-- The call and its commit. -/
def run (db : Database) (op : DbOp) : Option Database :=
  (op.apply (sessionScope db)).bind Transaction.commit

/-- The rows the function adds. -/
def rows (db : Database) : DbOp → Tables
  | upsertUser username => ⟨newUser db username, [], [], []⟩
  | createUser username passwordHash => ⟨[⟨username, some passwordHash⟩], [], [], []⟩
  | addMembership username channelName =>
    ⟨newUser db username, missing db.channels channelName,
      missing db.memberships ⟨username, channelName⟩, []⟩
  | saveChannelMessage channelName sender body =>
    ⟨newUser db sender, missing db.channels channelName,
      missing db.memberships ⟨sender, channelName⟩,
      [⟨.channel, sender, some channelName, none, body⟩]⟩
  | saveDm sender recipient body =>
    ⟨newUser db sender ++ newUser db recipient, [], [], [⟨.dm, sender, none, some recipient, body⟩]⟩

variable {db db' : Database} {op : DbOp} {tx : Transaction}

theorem upsertUser_added (db : Database) (username : PyStr) :
    (sessionScope db).upsertUser username = ⟨db, ⟨newUser db username, [], [], []⟩⟩ := by
  unfold Transaction.upsertUser newUser missing sessionScope addUser
  split_ifs <;> rfl

/-- **What a function adds.** -/
theorem apply_eq (h : op.apply (sessionScope db) = some tx) :
    tx.committed = db ∧ tx.added = op.rows db := by
  cases op with
  | upsertUser username =>
    rw [← Option.some.inj h, upsertUser_added]
    exact ⟨rfl, rfl⟩
  | createUser username passwordHash =>
    obtain ⟨-, htx⟩ := Option.ite_none_left_eq_some.mp h
    rw [← Option.some.inj htx]
    exact ⟨rfl, rfl⟩
  | addMembership username channelName =>
    rw [← Option.some.inj h]
    exact ⟨addMembership_committed .., addMembership_added ..⟩
  | saveChannelMessage channelName sender body =>
    rw [← Option.some.inj h]
    exact ⟨addMembership_committed .., saveChannelMessage_added ..⟩
  | saveDm sender recipient body =>
    rw [← Option.some.inj h]
    refine ⟨?_, saveDm_added ..⟩
    unfold Transaction.saveDm Transaction.upsertUser
    split_ifs <;> rfl

/-- **A commit adds the rows of the function.** -/
theorem tables_of_run (h : op.run db = some db') : db'.toTables = db.append (op.rows db) := by
  obtain ⟨tx, htx, hcommit⟩ := Option.bind_eq_some_iff.mp h
  have htables := commit_tables hcommit
  rwa [(apply_eq htx).1, (apply_eq htx).2] at htables

/-- New users keep the constraints, if their names are new. -/
theorem consistent_users {users : List User}
    (hkey : (db.append ⟨users, [], [], []⟩).usernames.Nodup) :
    (db.append ⟨users, [], [], []⟩).Consistent := by
  have husers : (db.append ⟨users, [], [], []⟩).usernames =
      db.usernames ++ users.map User.username := List.map_append
  refine ⟨hkey, ?_, ?_, ?_, ?_⟩
  · show (db.channels ++ []).Nodup
    rw [List.append_nil]
    exact db.consistent.channels
  · show (db.memberships ++ []).Nodup
    rw [List.append_nil]
    exact db.consistent.memberships
  · rw [husers]
    intro m hm
    obtain ⟨hu, hc⟩ := db.consistent.members m (List.append_nil db.memberships ▸ hm)
    exact ⟨List.mem_append_left _ hu, List.mem_append_left _ hc⟩
  · rw [husers]
    exact messages_append fun m hm => absurd hm List.not_mem_nil

/-- **Only the primary key of `users` can forbid a commit.** -/
theorem consistent (db : Database) (op : DbOp)
    (hkey : (db.append (op.rows db)).usernames.Nodup) : (db.append (op.rows db)).Consistent := by
  cases op with
  | upsertUser username => exact consistent_users hkey
  | createUser username passwordHash => exact consistent_users hkey
  | addMembership username channelName =>
    exact consistent_addMembership db username channelName fun m hm => absurd hm List.not_mem_nil
  | saveChannelMessage channelName sender body =>
    refine consistent_addMembership db sender channelName fun m hm => ?_
    obtain rfl := List.mem_singleton.mp hm
    exact ⟨rfl, fun c hc => List.mem_singleton.mp hc, rfl⟩
  | saveDm sender recipient body =>
    refine consistent_saveDm db body fun heq => ?_
    subst heq
    by_contra hnew
    have husers : (db.append ((saveDm sender sender body).rows db)).usernames =
        db.usernames ++ (missing db.usernames sender ++ missing db.usernames sender) := by
      show (db.users ++ (newUser db sender ++ newUser db sender)).map User.username = _
      rw [List.map_append, List.map_append, usernames_newUser]
      rfl
    rw [husers, missing, if_neg hnew] at hkey
    obtain ⟨-, htwice, -⟩ := List.nodup_append.mp hkey
    exact (List.nodup_cons.mp htwice).1 (List.mem_singleton_self sender)

end DbOp

/-! ## What the tables hold -/

/-- A message is of one of two kinds, and a text was said by a member of its channel. -/
def MessageOk (t : Tables) (m : Message) : Prop :=
  match m.kind with
  | .channel => ∃ c, m.channelName = some c ∧ m.recipient = none ∧ ⟨m.sender, c⟩ ∈ t.memberships
  | .dm => m.channelName = none ∧ ∃ r, m.recipient = some r

theorem MessageOk.mono {t t' : Tables} {m : Message} (h : MessageOk t m)
    (hsub : t.memberships ⊆ t'.memberships) : MessageOk t' m := by
  unfold MessageOk at h ⊢
  cases hkind : m.kind with
  | channel =>
    rw [hkind] at h
    obtain ⟨c, hc, hr, hmem⟩ := h
    exact ⟨c, hc, hr, hsub hmem⟩
  | dm =>
    rw [hkind] at h
    exact h

/-- **The messages a function adds are well formed.** -/
theorem DbOp.rows_messageOk (db : Database) (op : DbOp) :
    ∀ m ∈ (op.rows db).messages, MessageOk (db.append (op.rows db)) m := by
  intro m hm
  cases op with
  | upsertUser _ | createUser _ _ | addMembership _ _ => cases hm
  | saveChannelMessage channelName sender body =>
    obtain rfl := List.mem_singleton.mp hm
    exact ⟨channelName, rfl, rfl, mem_append_missing ..⟩
  | saveDm sender recipient body =>
    obtain rfl := List.mem_singleton.mp hm
    exact ⟨rfl, recipient, rfl⟩

/-- The result of `stats_snapshot`. -/
structure StatsSnapshot where
  users : ℕ
  channels : ℕ
  memberships : ℕ
  messages : ℕ
  channelMessages : ℕ
  directMessages : ℕ
  deriving DecidableEq

/-- `stats_snapshot`. -/
def statsSnapshot (db : Database) : StatsSnapshot :=
  { users := db.users.length
    channels := db.channels.length
    memberships := db.memberships.length
    messages := db.messages.length
    channelMessages := db.messages.countP fun m => m.kind = .channel
    directMessages := db.messages.countP fun m => m.kind = .dm }

/-- **Every message is counted once by its kind.** -/
theorem statsSnapshot_messages (db : Database) : (statsSnapshot db).messages =
    (statsSnapshot db).channelMessages + (statsSnapshot db).directMessages := by
  have hdm : ∀ m : Message, decide (m.kind = .dm) = !decide (m.kind = .channel) := by
    rintro ⟨kind, -, -, -, -⟩
    cases kind <;> rfl
  show db.messages.length = _ + db.messages.countP fun m => m.kind = .dm
  rw [List.length_eq_countP_add_countP fun m : Message => decide (m.kind = .channel)]
  exact congrArg _ (List.countP_congr fun m _ => by rw [hdm]; simp)

/-! ## Sequences of operations -/

/-- The database and the `id` of each message, in the order of their insertion. -/
structure Ledger where
  db : Database
  ids : List ℕ

/-- An operation is committed.  The database gives each new message an `id` greater than all it
gave before. -/
inductive Commits : Ledger → DbOp → Ledger → Prop where
  | intro {l : Ledger} {op : DbOp} {db : Database} {new : List ℕ} : op.run l.db = some db →
      new.length = (op.rows l.db).messages.length → (∀ i ∈ l.ids, ∀ j ∈ new, i < j) →
      new.Pairwise (· < ·) → Commits l op ⟨db, l.ids ++ new⟩

/-- The database, from empty tables, under any committed operations. -/
def ledgers : Transition.System Ledger where
  init l := l.db.toTables = .empty ∧ l.ids = []
  step l l' := ∃ op, Commits l op l'

/-- **What holds in every database state.** -/
structure LedgerOk (l : Ledger) : Prop where
  memberships : l.db.memberships.Nodup
  members : ∀ m ∈ l.db.memberships, m.username ∈ l.db.usernames ∧ m.channelName ∈ l.db.channels
  messages : ∀ m ∈ l.db.messages, m.sender ∈ l.db.usernames ∧
    (∀ c ∈ m.channelName, c ∈ l.db.channels) ∧ ∀ r ∈ m.recipient, r ∈ l.db.usernames
  kinds : ∀ m ∈ l.db.messages, MessageOk l.db.toTables m
  numbered : l.ids.length = l.db.messages.length
  ids : l.ids.Pairwise (· < ·)
  stats : (statsSnapshot l.db).messages =
    (statsSnapshot l.db).channelMessages + (statsSnapshot l.db).directMessages

variable {l l' : Ledger} {op : DbOp}

theorem Commits.kinds (h : Commits l op l') (hl : ∀ m ∈ l.db.messages, MessageOk l.db.toTables m) :
    ∀ m ∈ l'.db.messages, MessageOk l'.db.toTables m := by
  obtain ⟨hrun, -, -, -⟩ := h
  rw [DbOp.tables_of_run hrun]
  intro m hm
  rcases List.mem_append.mp hm with hm | hm
  · exact (hl m hm).mono (List.subset_append_left ..)
  · exact op.rows_messageOk l.db m hm

theorem Commits.ids (h : Commits l op l')
    (hl : l.ids.length = l.db.messages.length ∧ l.ids.Pairwise (· < ·)) :
    l'.ids.length = l'.db.messages.length ∧ l'.ids.Pairwise (· < ·) := by
  obtain ⟨hrun, hlen, hnew, hsorted⟩ := h
  rw [DbOp.tables_of_run hrun]
  refine ⟨?_, List.pairwise_append.mpr ⟨hl.2, hsorted, hnew⟩⟩
  show (l.ids ++ _).length = (l.db.messages ++ _).length
  rw [List.length_append, List.length_append, hl.1, hlen]

/-- **The tables stay related**, over every sequence of operations, and no operation needs a
constraint for that: of all constraints only the primary key of `users` can forbid a commit. -/
theorem tables_invariant (h : Transition.Reachable ledgers l) : LedgerOk l ∧
    ∀ op : DbOp, (l.db.append (op.rows l.db)).usernames.Nodup →
      (l.db.append (op.rows l.db)).Consistent := by
  have hinv : (∀ m ∈ l.db.messages, MessageOk l.db.toTables m) ∧
      l.ids.length = l.db.messages.length ∧ l.ids.Pairwise (· < ·) := by
    refine Transition.Reachable.invariant (P := fun l : Ledger =>
      (∀ m ∈ l.db.messages, MessageOk l.db.toTables m) ∧
        l.ids.length = l.db.messages.length ∧ l.ids.Pairwise (· < ·)) ?_ ?_ h
    · rintro l ⟨hdb, hids⟩
      rw [hdb, hids]
      exact ⟨fun m hm => absurd hm List.not_mem_nil, rfl, .nil⟩
    · rintro l l' - ⟨hkinds, hids⟩ ⟨op, hop⟩
      exact ⟨hop.kinds hkinds, hop.ids hids⟩
  have hc := l.db.consistent
  refine ⟨⟨hc.memberships, hc.members, fun m hm => ?_, hinv.1, hinv.2.1, hinv.2.2,
    statsSnapshot_messages l.db⟩, DbOp.consistent l.db⟩
  obtain ⟨hsender, hchannel, hrecipient⟩ := hc.messages m hm
  exact ⟨hsender, fun c hcm => hchannel c (Option.mem_toList.mpr hcm),
    fun r hr => hrecipient r (Option.mem_toList.mpr hr)⟩

/-- The empty tables. -/
def noRows : Database := ⟨.empty, by decide⟩

theorem tables_invariant_saidAndSent : ∃ l, Transition.Reachable ledgers l ∧
    l.db.messages.length = 2 ∧ l.db.usernames = [py "alice", py "bob"] ∧ LedgerOk l := by
  obtain ⟨db, hdb, db', hdb', hmessages, husers⟩ :
      ∃ db ∈ (DbOp.saveChannelMessage (py "room") (py "alice") (py "hi")).run noRows,
      ∃ db' ∈ (DbOp.saveDm (py "alice") (py "bob") (py "hello")).run db,
        db'.messages.length = 2 ∧ db'.usernames = [py "alice", py "bob"] := by decide +kernel
  have hfirst : Commits ⟨noRows, []⟩ _ ⟨db, [] ++ [1]⟩ :=
    .intro hdb rfl nofun (List.pairwise_singleton ..)
  have hsecond : Commits ⟨db, [] ++ [1]⟩ _ ⟨db', ([] ++ [1]) ++ [2]⟩ :=
    .intro hdb' rfl (show ∀ i ∈ [1], ∀ j ∈ [2], i < j by decide) (List.pairwise_singleton ..)
  have hreach : Transition.Reachable ledgers ⟨db', ([] ++ [1]) ++ [2]⟩ :=
    .step (.step (.init ⟨rfl, rfl⟩) ⟨_, hfirst⟩) ⟨_, hsecond⟩
  exact ⟨_, hreach, hmessages, husers, (tables_invariant hreach).1⟩

end Gateway
end ChannelWire
