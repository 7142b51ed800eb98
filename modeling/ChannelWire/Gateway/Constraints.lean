import ChannelWire.Gateway.Database
import Mathlib.Data.List.Dedup

/-!
# What the stores add

`save_dm`, `save_channel_message` and `add_membership` ask for the rows they need one by one, and
each question sees the committed rows only.  A name that is needed twice and stands in no row is
thus added twice.  Only `save_dm` asks for two names in one table, so it is the only one whose
commit can fail, when a new user writes to itself (`adds_saveDm_iff`).
-/

namespace ChannelWire
namespace Gateway

open Transaction

/-- The elements of `needed` that are missing in `l`, each once. -/
def missingAll {α : Type*} [DecidableEq α] (l needed : List α) : List α :=
  (needed.filter (· ∉ l)).dedup

/-- A commit adds the rows that are missing and the messages, and changes no other row. -/
def Adds (db : Database) (usernames channels : List PyStr) (memberships : List Membership)
    (messages : List Message) (result : Option Database) : Prop :=
  ∃ db', result = some db' ∧ db'.toTables = db.append
    ⟨(missingAll db.usernames usernames).map (⟨·, none⟩), missingAll db.channels channels,
      missingAll db.memberships memberships, messages⟩

section MissingAll

variable {α : Type*} [DecidableEq α]

@[simp] theorem missingAll_nil (l : List α) : missingAll l [] = [] := rfl

@[simp] theorem missingAll_singleton (l : List α) (a : α) : missingAll l [a] = missing l a := by
  unfold missingAll missing
  by_cases h : a ∈ l <;> simp [h]

theorem missingAll_pair {l : List α} {a b : α} (h : a = b → a ∈ l) :
    missingAll l [a, b] = missing l a ++ missing l b := by
  unfold missingAll missing
  by_cases ha : a ∈ l
  · by_cases hb : b ∈ l <;> simp [ha, hb]
  · have hne : a ≠ b := fun heq => ha (h heq)
    by_cases hb : b ∈ l <;> simp [ha, hb, hne]

end MissingAll

variable {db : Database} {username channelName sender recipient body : PyStr}

theorem missingAll_usernames (h : sender = recipient → sender ∈ db.usernames) :
    (missingAll db.usernames [sender, recipient]).map (⟨·, none⟩) =
      newUser db sender ++ newUser db recipient := by
  rw [missingAll_pair h, List.map_append]
  rfl

/-- **A membership is added with what it needs.** -/
theorem adds_addMembership (db : Database) (username channelName : PyStr) :
    Adds db [username] [channelName] [⟨username, channelName⟩] []
      ((sessionScope db).addMembership username channelName).commit := by
  obtain ⟨db', hdb'⟩ := addMembership_commits db username channelName
  refine ⟨db', hdb', ?_⟩
  rw [commit_tables hdb', addMembership_added, addMembership_committed, missingAll_singleton,
    missingAll_singleton, missingAll_singleton]
  rfl

/-- **A text is added with what it needs.** -/
theorem adds_saveChannelMessage (db : Database) (channelName sender body : PyStr) :
    Adds db [sender] [channelName] [⟨sender, channelName⟩]
      [⟨.channel, sender, some channelName, none, body⟩]
      ((sessionScope db).saveChannelMessage channelName sender body).commit := by
  obtain ⟨db', hdb'⟩ := saveChannelMessage_commits db channelName sender body
  refine ⟨db', hdb', ?_⟩
  have hcommitted : ((sessionScope db).saveChannelMessage channelName sender body).committed = db :=
    addMembership_committed (sessionScope db) sender channelName
  rw [commit_tables hdb', saveChannelMessage_added, hcommitted, missingAll_singleton,
    missingAll_singleton, missingAll_singleton]
  rfl

/-- A new user that writes to itself is added twice, which the primary key of `users` forbids. -/
theorem commit_saveDm_eq_none (h : sender ∉ db.usernames) (body : PyStr) :
    ((sessionScope db).saveDm sender sender body).commit = none := by
  refine dif_neg fun hc => ?_
  rw [saveDm_committed, saveDm_added] at hc
  have hnodup : (db.usernames ++ (newUser db sender ++ newUser db sender).map
      User.username).Nodup := List.map_append ▸ hc.users
  have htwice : ((newUser db sender ++ newUser db sender).map User.username) =
      [sender, sender] := by
    rw [List.map_append, usernames_newUser, missing, if_neg h]
    rfl
  rw [htwice] at hnodup
  exact (List.nodup_cons.mp (List.nodup_append.mp hnodup).2.1).1 (List.mem_singleton_self sender)

/-- **A direct message is added with what it needs**, unless a new user writes to itself. -/
theorem adds_saveDm_iff (db : Database) (sender recipient body : PyStr) :
    Adds db [sender, recipient] [] [] [⟨.dm, sender, none, some recipient, body⟩]
        ((sessionScope db).saveDm sender recipient body).commit ↔
      (sender = recipient → sender ∈ db.usernames) := by
  constructor
  · rintro ⟨db', hdb', -⟩ rfl
    by_contra hsender
    rw [commit_saveDm_eq_none hsender] at hdb'
    cases hdb'
  · intro h
    obtain ⟨db', hdb'⟩ := saveDm_commits db body h
    refine ⟨db', hdb', ?_⟩
    rw [commit_tables hdb', saveDm_added, saveDm_committed, missingAll_usernames h,
      missingAll_nil, missingAll_nil]

/-- **Storing keeps the constraints, unless a new user writes to itself.**  The three stores commit
and add exactly the rows that were missing if and only if the sender of the direct message is
another user than its recipient, or has a row. -/
theorem stores_commit_iff (db : Database) (username channelName sender recipient body : PyStr) :
    Adds db [username] [channelName] [⟨username, channelName⟩] []
        ((sessionScope db).addMembership username channelName).commit ∧
      Adds db [sender] [channelName] [⟨sender, channelName⟩]
        [⟨.channel, sender, some channelName, none, body⟩]
        ((sessionScope db).saveChannelMessage channelName sender body).commit ∧
      Adds db [sender, recipient] [] [] [⟨.dm, sender, none, some recipient, body⟩]
        ((sessionScope db).saveDm sender recipient body).commit ↔
    (sender = recipient → sender ∈ db.usernames) :=
  ⟨fun ⟨_, _, hdm⟩ => (adds_saveDm_iff db sender recipient body).mp hdm,
    fun h => ⟨adds_addMembership db username channelName,
      adds_saveChannelMessage db channelName sender body,
      (adds_saveDm_iff db sender recipient body).mpr h⟩⟩

/-- In an empty database, a direct message of a user to itself is not stored. -/
theorem saveDm_to_oneself :
    ¬ ∀ (db : Database) (sender recipient body : PyStr),
      Adds db [sender, recipient] [] [] [⟨.dm, sender, none, some recipient, body⟩]
        ((sessionScope db).saveDm sender recipient body).commit := by
  intro h
  have hempty : Tables.empty.Consistent := by decide
  obtain ⟨db', hdb', -⟩ := h ⟨.empty, hempty⟩ (py "ada") (py "ada") (py "a note")
  have hnone : ((sessionScope ⟨.empty, hempty⟩).saveDm (py "ada") (py "ada")
      (py "a note")).commit = none := commit_saveDm_eq_none List.not_mem_nil _
  rw [hnone] at hdb'
  cases hdb'

end Gateway
end ChannelWire
