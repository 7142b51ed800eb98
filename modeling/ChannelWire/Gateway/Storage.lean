import ChannelWire.Gateway.Runs

/-!
# What is stored

`Session.Round` says what one round of `pump_core_to_ws` can do: it raises, it stores one of three
kinds of messages, or it stores nothing.  With it and `pump_ws_to_core`, which stores memberships,
`Step.stores` says what an event adds to the database; nothing is ever removed or changed.

`Run` is a run with the messages its sessions stored, in the order of their commits: these are the
rows that stand behind the old ones in the table `messages` (`Run.messages`).
-/

namespace ChannelWire
namespace Gateway

open Transaction

/-! ## One round of `pump_core_to_ws` -/

namespace Session

/-- What a round stores, as one row. -/
structure Saves (db : Database) (x y : Session) (db' : Database) (added : Tables) (row : Message)
    (own : Bool) : Prop where
  reading : y.reading = x.reading
  stored : y.stored = x.stored ++ [⟨row, x.reads.length, own⟩]
  tables : db'.toTables = db.append added
  messages : added.messages = [row]

/-- The round raises: the frame cannot be decoded, or a direct message of a user without a row in
`users` to itself breaks the key of `users`. -/
def Raises (active : PyStr → ℕ) (db : Database) (x : Session) (frame : Frame) : Prop :=
  (∃ e, gatewayEvent frame = .error e) ∨ x.username.name ∉ db.usernames ∧
    ((active x.username.name = 0 ∧ ∃ text, gatewayEvent frame = .ok (.dm x.username.name text)) ∨
      ∃ text rest, gatewayEvent frame = .ok (.ok (py "direct message sent")) ∧
        x.pendingDms = (x.username.name, text) :: rest)

/-- **A round of `pump_core_to_ws`**, from `x` to `y`. -/
inductive Round (active : PyStr → ℕ) (db : Database) (x : Session) (frame : Frame) :
    Session → Database → Prop where
  | raises {y : Session} : Raises active db x frame → y.reading = false → y.stored = x.stored →
      Round active db x frame y db
  /-- The session's own text came back. -/
  | text {y : Session} {db' : Database} {channel text : PyStr} :
      gatewayEvent frame = .ok (.chat channel x.username.name text) →
      y.pendingDms = x.pendingDms →
      Saves db x y db' ((sessionScope db).saveChannelMessage channel x.username.name text).added
        ⟨.channel, x.username.name, some channel, none, text⟩ false → Round active db x frame y db'
  /-- A direct message came from a user without a session. -/
  | received {y : Session} {db' : Database} {sender text : PyStr} :
      gatewayEvent frame = .ok (.dm sender text) → active sender = 0 →
      y.pendingDms = x.pendingDms →
      Saves db x y db' ((sessionScope db).saveDm sender x.username.name text).added
        ⟨.dm, sender, none, some x.username.name, text⟩ false → Round active db x frame y db'
  /-- A direct message of the session was acknowledged. -/
  | acknowledged {y : Session} {db' : Database} {target text : PyStr} :
      gatewayEvent frame = .ok (.ok (py "direct message sent")) →
      x.pendingDms = (target, text) :: y.pendingDms →
      Saves db x y db' ((sessionScope db).saveDm x.username.name target text).added
        ⟨.dm, x.username.name, none, some target, text⟩ true → Round active db x frame y db'
  /-- The browser is told of any other event. -/
  | shows {y : Session} {event : GatewayEvent} : gatewayEvent frame = .ok event →
      (∀ channel text, event ≠ .chat channel x.username.name text) →
      (∀ sender text, event = .dm sender text → active sender ≠ 0) →
      (event = .ok (py "direct message sent") → x.pendingDms = []) →
      y.pendingDms = (if frame.type = ServerMsgType.error.toByte then x.pendingDms.tail
        else x.pendingDms) →
      y.reading = x.reading → y.stored = x.stored → Round active db x frame y db

/-- A commit that is possible is done. -/
theorem save_of_commit {x : Session} {index : ℕ} {tx : Transaction} {own : Bool}
    {event : GatewayEvent} {db : Database} (h : tx.commit = some db) :
    x.save index tx own event =
      (({ x with stored := x.stored ++ tx.added.messages.map (Stored.mk · index own) }).sendJson
        (.event event), db) := by
  unfold save
  rw [h]

theorem save_of_no_commit {x : Session} {index : ℕ} {tx : Transaction} {own : Bool}
    {event : GatewayEvent} (h : tx.commit = none) :
    x.save index tx own event = ({ x with reading := false }, tx.committed) := by
  unfold save
  rw [h]

/-- Storing a direct message, when it is possible and when it is not. -/
theorem save_dm_cases (db : Database) {x z : Session} (sender recipient body : PyStr) (own : Bool)
    (event : GatewayEvent) (hreading : z.reading = x.reading) (hstored : z.stored = x.stored) :
    (∃ y db', z.save x.reads.length ((sessionScope db).saveDm sender recipient body) own event =
        (y, db') ∧ y.pendingDms = z.pendingDms ∧
        Saves db x y db' ((sessionScope db).saveDm sender recipient body).added
          ⟨.dm, sender, none, some recipient, body⟩ own) ∨
      (sender = recipient ∧ sender ∉ db.usernames ∧
        z.save x.reads.length ((sessionScope db).saveDm sender recipient body) own event =
          ({ z with reading := false }, db)) := by
  have hcommitted : ((sessionScope db).saveDm sender recipient body).committed = db := by
    unfold saveDm upsertUser
    split_ifs <;> rfl
  cases hcommit : ((sessionScope db).saveDm sender recipient body).commit with
  | none =>
    have hfails : sender = recipient ∧ sender ∉ db.usernames := by
      by_contra hne
      obtain ⟨db', hdb'⟩ := saveDm_commits db body fun h => of_not_not fun hmem => hne ⟨h, hmem⟩
      rw [hcommit] at hdb'
      cases hdb'
    exact .inr ⟨hfails.1, hfails.2, by rw [save_of_no_commit hcommit, hcommitted]⟩
  | some db' =>
    have htables := commit_tables hcommit
    rw [hcommitted] at htables
    refine .inl ⟨_, db', save_of_commit hcommit, rfl, hreading, ?_, htables, saveDm_messages ..⟩
    show z.stored ++ _ = _
    rw [saveDm_messages, hstored]
    rfl

/-- **What a round of `pump_core_to_ws` does.** -/
theorem pumpCoreToWs_round (active : PyStr → ℕ) (db : Database) (x : Session) (frame : Frame) :
    Round active db x frame (x.pumpCoreToWs active db frame).1
      (x.pumpCoreToWs active db frame).2 := by
  unfold pumpCoreToWs
  simp only
  cases hevent : gatewayEvent frame with
  | error e => exact .raises (.inl ⟨e, hevent⟩) rfl rfl
  | ok event =>
    have hof := gatewayEvent_of hevent
    have hshows : ∀ {y : Session} {type : ServerMsgType}, frame.type = type.toByte → type ≠ .error →
        (∀ channel text, event ≠ .chat channel x.username.name text) →
        (∀ sender text, event = .dm sender text → active sender ≠ 0) →
        (event = .ok (py "direct message sent") → x.pendingDms = []) →
        y.pendingDms = x.pendingDms → y.reading = x.reading → y.stored = x.stored →
        Round active db x frame y db := by
      intro y type htype hne hchat hdm hok hpending
      refine .shows hevent hchat hdm hok ?_
      rw [if_neg fun h => hne (ServerMsgType.toByte_inj.mp (htype.symm.trans h))]
      exact hpending
    cases event with
    | chat channel sender text =>
      simp only
      split_ifs with hown
      · subst hown
        obtain ⟨db', hcommit⟩ := saveChannelMessage_commits db channel x.username.name text
        rw [save_of_commit hcommit]
        have htables := commit_tables hcommit
        have hcommitted : ((sessionScope db).saveChannelMessage channel x.username.name
            text).committed = db := addMembership_committed ..
        rw [hcommitted] at htables
        refine .text hevent rfl ⟨rfl, ?_, htables, saveChannelMessage_messages ..⟩
        show x.stored ++ _ = _
        rw [saveChannelMessage_messages]
        rfl
      · exact hshows hof.1 (by decide) (fun c t h => by cases h; exact hown rfl) nofun nofun rfl rfl rfl
    | dm sender text =>
      simp only
      split_ifs with hactive
      · have hsave := @save_dm_cases db x { x with reads := x.reads ++ [frame] } sender
          x.username.name text false (.dm sender text) rfl rfl
        rcases hsave with ⟨y, db', heq, hpending, hsaves⟩ | ⟨hself, huser, hfails⟩
        · rw [heq]
          exact .received hevent hactive hpending hsaves
        · rw [hfails]
          subst hself
          exact .raises (.inr ⟨huser, .inl ⟨hactive, text, hevent⟩⟩) rfl rfl
      · refine hshows hof.1 (by decide) nofun (fun s t h => ?_) nofun rfl rfl rfl
        cases h
        exact hactive
    | ok message =>
      simp only
      split_ifs with hsent
      · subst hsent
        split
        · next hpending => exact hshows hof.1 (by decide) nofun nofun (fun _ => hpending) rfl rfl rfl
        · next target text rest hpending =>
          have hsave := @save_dm_cases db x
            { x with reads := x.reads ++ [frame], pendingDms := rest } x.username.name target text
            true (.ok (py "direct message sent")) rfl rfl
          rcases hsave with ⟨y, db', heq, hrest, hsaves⟩ | ⟨hself, huser, hfails⟩
          · rw [heq]
            exact .acknowledged hevent (hrest ▸ hpending) hsaves
          · rw [hfails]
            subst hself
            exact .raises (.inr ⟨huser, .inr ⟨text, rest, hevent, hpending⟩⟩) rfl rfl
      · refine hshows hof.1 (by decide) nofun nofun (fun h => ?_) rfl rfl rfl
        cases h
        exact absurd rfl hsent
    | error _ =>
      have htail : x.pendingDms.tail = if frame.type = ServerMsgType.error.toByte then
          x.pendingDms.tail else x.pendingDms := (if_pos hof).symm
      exact .shows hevent nofun nofun nofun htail rfl rfl
    | who _ => exact hshows hof (by decide) nofun nofun nofun rfl rfl rfl
    | channels _ => exact hshows hof (by decide) nofun nofun nofun rfl rfl rfl
    | system _ => exact hshows hof (by decide) nofun nofun nofun rfl rfl rfl
    | coreStats _ | coreStatsRaw _ => exact hshows hof (by decide) nofun nofun nofun rfl rfl rfl
    | raw _ _ =>
      have hpending : x.pendingDms = if frame.type = ServerMsgType.error.toByte then
          x.pendingDms.tail else x.pendingDms := by
        rw [if_neg]
        intro htype
        have hnone : ServerMsgType.ofByte frame.type = none := hof
        rw [htype, ServerMsgType.ofByte_toByte] at hnone
        cases hnone
      exact .shows hevent nofun nofun nofun hpending rfl rfl

end Session

/-! ## One event -/

/-- The channel of a `join` or `switch` that `core_payload_for_command` accepts. -/
def joinedChannel (loaded : Except ValueError Json) : Option PyStr :=
  match loaded with
  | .ok (.object message) =>
    match corePayloadForCommand message with
    | .ok (.join, _) | .ok (.switch, _) => some ((Dict.getStr message "channel").getD [])
    | _ => none
  | _ => none

/-- What an event adds to the database, and the messages among it with the sessions that stored
them. -/
inductive Stores (s : State) : Event → Tables → List (ℕ × Stored) → Prop where
  | users {e : Event} (users : List User) : Stores s e ⟨users, [], [], []⟩ []
  | joins {k : ℕ} {x : Session} {loaded : Except ValueError Json} {channel : PyStr} :
      s.sessions k = some x → joinedChannel loaded = some channel →
      Stores s (.command k loaded)
        ((sessionScope s.db).addMembership x.username.name channel).added []
  | text {k : ℕ} {x : Session} {frame : Frame} {channel text : PyStr} :
      s.sessions k = some x → x.phase ≠ .registering → x.reading = true →
      s.nextFrame k x = some frame →
      gatewayEvent frame = .ok (.chat channel x.username.name text) →
      Stores s (.read k)
        ((sessionScope s.db).saveChannelMessage channel x.username.name text).added
        [(k, ⟨⟨.channel, x.username.name, some channel, none, text⟩, x.reads.length, false⟩)]
  | received {k : ℕ} {x : Session} {frame : Frame} {sender text : PyStr} :
      s.sessions k = some x → x.phase ≠ .registering → x.reading = true →
      s.nextFrame k x = some frame → gatewayEvent frame = .ok (.dm sender text) →
      s.active sender = 0 →
      Stores s (.read k) ((sessionScope s.db).saveDm sender x.username.name text).added
        [(k, ⟨⟨.dm, sender, none, some x.username.name, text⟩, x.reads.length, false⟩)]
  | acknowledged {k : ℕ} {x : Session} {frame : Frame} {target text : PyStr}
      {rest : List (PyStr × PyStr)} :
      s.sessions k = some x → x.phase ≠ .registering → x.reading = true →
      s.nextFrame k x = some frame →
      gatewayEvent frame = .ok (.ok (py "direct message sent")) →
      x.pendingDms = (target, text) :: rest →
      Stores s (.read k) ((sessionScope s.db).saveDm x.username.name target text).added
        [(k, ⟨⟨.dm, x.username.name, none, some target, text⟩, x.reads.length, true⟩)]

/-- What session `k` has stored. -/
def storedBy (s : State) (k : ℕ) : List Stored := (s.sessions k).elim [] Session.stored

/-- What an event from `s` to `t` stored, with the session that did. -/
def storedIn (s t : State) : Event → List (ℕ × Stored)
  | .read k => ((storedBy t k).drop (storedBy s k).length).map (k, ·)
  | _ => []

/-- The event adds rows, and what it stores is what the sessions store. -/
structure Grows (s t : State) (e : Event) (new : Tables) : Prop where
  stores : Stores s e new (storedIn s t e)
  tables : t.db.toTables = s.db.append new
  messages : new.messages = (storedIn s t e).map fun w => w.2.row
  stored : ∀ j, storedBy t j =
    storedBy s j ++ ((storedIn s t e).filter fun w => w.1 = j).map Prod.snd

variable {s t : State} {e : Event}

@[simp] theorem Tables.append_empty (tables : Tables) : tables.append ⟨[], [], [], []⟩ = tables := by
  simp [Tables.append]

/-- An event that stores no message. -/
theorem Grows.of_none {new : Tables} (hstores : Stores s e new [])
    (htables : t.db.toTables = s.db.append new) (hmessages : new.messages = [])
    (hstored : ∀ j, storedBy t j = storedBy s j) : Grows s t e new := by
  have he : storedIn s t e = [] := by
    cases e with
    | read k => rw [storedIn, hstored, List.drop_length, List.map_nil]
    | _ => rfl
  refine ⟨by rw [he]; exact hstores, htables, by rw [he]; exact hmessages, fun j => ?_⟩
  rw [he, hstored]
  exact (List.append_nil _).symm

/-- An event that stores nothing. -/
theorem Grows.of_same (hdb : t.db = s.db) (hstored : ∀ j, storedBy t j = storedBy s j) :
    Grows s t e ⟨[], [], [], []⟩ :=
  .of_none (.users []) (by rw [hdb, Tables.append_empty]) rfl hstored

/-- A session is overwritten that stored as much. -/
theorem storedBy_of_same {k : ℕ} {x y : Session} (hx : s.sessions k = some x)
    (ht : t.sessions = Function.update s.sessions k (some y)) (hstored : y.stored = x.stored)
    (j : ℕ) : storedBy t j = storedBy s j := by
  unfold storedBy
  rw [ht]
  rcases eq_or_ne j k with rfl | hne
  · rw [Function.update_self, hx]
    exact hstored
  · rw [Function.update_of_ne hne]

/-- A message is stored in a round of `pump_core_to_ws`. -/
theorem Grows.of_saves {k : ℕ} {x y : Session} {db : Database} {new : Tables} {row : Message}
    {own : Bool} (hx : s.sessions k = some x)
    (ht : t.sessions = Function.update s.sessions k (some y)) (hdb : t.db = db)
    (h : Session.Saves s.db x y db new row own)
    (hstores : Stores s (.read k) new [(k, ⟨row, x.reads.length, own⟩)]) :
    Grows s t (.read k) new := by
  have hk : storedBy s k = x.stored := by
    unfold storedBy
    rw [hx]
    rfl
  have hother : ∀ j, storedBy t j = if j = k then y.stored else storedBy s j := by
    intro j
    unfold storedBy
    rw [ht]
    rcases eq_or_ne j k with rfl | hne
    · simp
    · simp [hne]
  have hin : storedIn s t (.read k) = [(k, ⟨row, x.reads.length, own⟩)] := by
    rw [storedIn, hother, if_pos rfl, h.stored, hk, List.drop_left]
    rfl
  refine ⟨hin ▸ hstores, hdb ▸ h.tables, ?_, fun j => ?_⟩
  · rw [hin]
    exact h.messages
  · rw [hother, hin]
    rcases eq_or_ne j k with rfl | hne
    · rw [if_pos rfl, h.stored, hk]
      simp
    · rw [if_neg hne]
      simp [hne.symm]

/-- What a round of `pump_ws_to_core` stores. -/
theorem Session.pumpWsToCore_db (db : Database) (x : Session) (loaded : Except ValueError Json) :
    (joinedChannel loaded = none ∧ (x.pumpWsToCore db loaded).2 = db) ∨
      ∃ channel, joinedChannel loaded = some channel ∧ (x.pumpWsToCore db loaded).2.toTables =
        db.append ((sessionScope db).addMembership x.username.name channel).added := by
  have hjoin : ∀ channel, ∃ db', ((sessionScope db).addMembership x.username.name
      channel).commit = some db' ∧
      db'.toTables = db.append ((sessionScope db).addMembership x.username.name channel).added := by
    intro channel
    obtain ⟨db', hcommit⟩ := addMembership_commits db x.username.name channel
    have htables := commit_tables hcommit
    rw [addMembership_committed] at htables
    exact ⟨db', hcommit, htables⟩
  cases loaded with
  | error _ => exact .inl ⟨rfl, rfl⟩
  | ok json =>
    cases json with
    | object message =>
      unfold joinedChannel pumpWsToCore
      simp only
      cases hmessage : corePayloadForCommand message with
      | error _ => exact .inl ⟨rfl, rfl⟩
      | ok r =>
        obtain ⟨msgType, payload⟩ := r
        cases msgType with
        | join | switch =>
          obtain ⟨db', hcommit, htables⟩ := hjoin ((Dict.getStr message "channel").getD [])
          refine .inr ⟨_, rfl, ?_⟩
          simp only
          rw [hcommit]
          exact htables
        | hello | leave | say | dm | who | list | nick | quit | stats => exact .inl ⟨rfl, rfl⟩
    | _ => exact .inl ⟨rfl, rfl⟩

/-- **What an event adds to the database.** -/
theorem Step.grows (h : Step s e t) : ∃ new, Grows s t e new := by
  cases h with
  | core _ _ => exact ⟨_, .of_same rfl fun _ => rfl⟩
  | @connect k u hnone _ _ =>
    refine ⟨_, .of_same rfl fun j => ?_⟩
    unfold storedBy State.setSession
    rcases eq_or_ne j k with rfl | hne
    · simp only [Function.update_self, hnone]
      rfl
    · simp only [Function.update_of_ne hne]
  | @read k x frame hx hphase hnext =>
    rcases hphase with hphase | ⟨hphase, hreading⟩
    · have hsessions : (s.read k x frame).sessions =
          Function.update s.sessions k (some (x.registered frame)) := by
        unfold State.read
        rw [hphase]
        simp only
        split_ifs <;> rfl
      have hdb : (s.read k x frame).db = s.db := by
        unfold State.read
        rw [hphase]
        simp only
        split_ifs <;> rfl
      exact ⟨_, .of_same hdb (storedBy_of_same hx hsessions (x.registered_stored frame))⟩
    · rw [State.read_eq hphase]
      have hround := Session.pumpCoreToWs_round s.active s.db x frame
      generalize x.pumpCoreToWs s.active s.db frame = r at hround ⊢
      obtain ⟨y, db⟩ := r
      cases hround with
      | raises _ _ hstored => exact ⟨_, .of_same rfl (storedBy_of_same hx rfl hstored)⟩
      | shows _ _ _ _ _ _ hstored => exact ⟨_, .of_same rfl (storedBy_of_same hx rfl hstored)⟩
      | text hevent _ hsaves =>
        exact ⟨_, .of_saves hx rfl rfl hsaves (.text hx hphase hreading hnext hevent)⟩
      | received hevent hactive _ hsaves =>
        exact ⟨_, .of_saves hx rfl rfl hsaves (.received hx hphase hreading hnext hevent hactive)⟩
      | acknowledged hevent hpending hsaves =>
        exact ⟨_, .of_saves hx rfl rfl hsaves
          (.acknowledged hx hphase hreading hnext hevent hpending)⟩
  | @command k x loaded hx _ _ =>
    have hstored := storedBy_of_same (t := s.command k x loaded) hx rfl
      (Session.pumpWsToCore_writes s.db x loaded).stored
    rcases x.pumpWsToCore_db s.db loaded with ⟨-, hdb⟩ | ⟨channel, hchannel, htables⟩
    · exact ⟨_, .of_same hdb hstored⟩
    · refine ⟨_, .of_none (.joins hx hchannel) htables ?_ hstored⟩
      rw [addMembership_added]
  | @abandon k x frame counted hx _ _ _ =>
    refine ⟨_, .of_same ?_ (storedBy_of_same (y := x.abandoned frame) hx ?_ rfl)⟩
    · unfold State.abandon
      simp only
      split_ifs <;> rfl
    · unfold State.abandon
      simp only
      split_ifs <;> rfl
  | @finish k x cancelled hx _ =>
    refine ⟨_, .of_same ?_ (storedBy_of_same (y := x.finished cancelled) hx ?_ rfl)⟩
    · unfold State.finish
      simp only
      split_ifs <;> rfl
    · unfold State.finish
      simp only
      split_ifs <;> rfl
  | halt hx _ => exact ⟨_, .of_same rfl (storedBy_of_same hx rfl rfl)⟩
  | @devToken u db hdb =>
    have htables := commit_tables hdb
    have hadded : ((sessionScope s.db).upsertUser u.name).added =
        ⟨newUser s.db u.name, [], [], []⟩ := by
      unfold upsertUser newUser missing sessionScope addUser
      split_ifs <;> rfl
    have hcommitted : ((sessionScope s.db).upsertUser u.name).committed = s.db := by
      unfold upsertUser
      split_ifs <;> rfl
    rw [hadded, hcommitted] at htables
    exact ⟨_, .of_none (.users _) htables rfl fun _ => rfl⟩
  | @register u passwordHash db hdb =>
    obtain ⟨tx, htx, hcommit⟩ := Option.bind_eq_some_iff.mp hdb
    have htables := commit_tables hcommit
    unfold createUser at htx
    split_ifs at htx
    obtain rfl := Option.some.inj htx
    exact ⟨_, .of_none (.users [⟨u.name, some passwordHash⟩]) htables rfl fun _ => rfl⟩

/-! ## Every run -/

/-- A run that begins with the database `db₀`: the state it ends in, and the messages that its
sessions stored, in the order of their commits. -/
inductive Run (db₀ : Database) (admits : State → Event → Prop) : State → List (ℕ × Stored) → Prop
    where
  | init {s : State} : Initial s → s.db = db₀ → Run db₀ admits s []
  | step {s t : State} {e : Event} {w : List (ℕ × Stored)} : Run db₀ admits s w → admits s e →
      Step s e t → Run db₀ admits t (w ++ storedIn s t e)

namespace Run

variable {db₀ : Database} {admits : State → Event → Prop} {w : List (ℕ × Stored)}

theorem reachable (h : Run db₀ admits s w) : Reachable admits s := by
  induction h with
  | init hinit _ => exact .init hinit
  | step _ hadmits hst ih => exact .step ih ⟨_, hadmits, hst⟩

/-- A run whose events all meet a condition meets every weaker condition. -/
theorem of_admits {admits' : State → Event → Prop} (h : Run db₀ admits s w)
    (hadmits : ∀ s e, admits s e → admits' s e) : Run db₀ admits' s w := by
  induction h with
  | init hinit hdb => exact .init hinit hdb
  | step _ hadm hst ih => exact .step ih (hadmits _ _ hadm) hst

/-- **The rows of a run stand behind the old ones**, in the order of their commits. -/
theorem messages (h : Run db₀ admits s w) :
    s.db.messages = db₀.messages ++ w.map fun r => r.2.row := by
  induction h with
  | init _ hdb => rw [hdb, List.map_nil, List.append_nil]
  | @step s t e w _ _ hst ih =>
    obtain ⟨new, hgrows⟩ := hst.grows
    have hmessages : t.db.messages = s.db.messages ++ new.messages :=
      congrArg Tables.messages hgrows.tables
    rw [hmessages, hgrows.messages, ih, List.append_assoc, List.map_append]

/-- The rows of a session are those it stored. -/
theorem stored (h : Run db₀ admits s w) (k : ℕ) :
    storedBy s k = (w.filter fun r => r.1 = k).map Prod.snd := by
  induction h with
  | init hinit _ =>
    unfold storedBy
    rw [hinit.2.1]
    rfl
  | @step s t e w _ _ hst ih =>
    obtain ⟨new, hgrows⟩ := hst.grows
    rw [hgrows.stored, ih, List.filter_append, List.map_append]

end Run

/-- A run goes on. -/
theorem Run.steps {db₀ : Database} {admits : State → Event → Prop} {w : List (ℕ × Stored)}
    (h : Run db₀ admits s w) (hsteps : Relation.ReflTransGen (system admits).step s t) :
    ∃ w', Run db₀ admits t (w ++ w') := by
  induction hsteps with
  | refl => exact ⟨[], by rwa [List.append_nil]⟩
  | tail _ hst ih =>
    obtain ⟨w', hrun⟩ := ih
    obtain ⟨e, hadmits, hst⟩ := hst
    exact ⟨_, by rw [← List.append_assoc]; exact .step hrun hadmits hst⟩

/-- A schedule from an initial state is a run that begins with its database. -/
theorem run_of_schedule {admits : State → Event → Prop} (ks : List ℕ) (ops : List Op)
    (hs : Initial s) (hlegal : Throughout (Enabled ks) s ops)
    (hadmitted : Throughout (Admitted admits) s ops) :
    (∃ w, Run s.db admits (s.run ops) w) ∧ Within ks (s.run ops) := by
  have hw : Within ks s := fun j _ => by rw [hs.2.1]
  obtain ⟨hsteps, hwithin⟩ := schedule_steps (.init hs) hw hlegal hadmitted
  exact ⟨(Run.init hs rfl).steps hsteps, hwithin⟩

/-- A schedule of which nothing is demanded. -/
theorem run_of_legal (ks : List ℕ) (ops : List Op) (hs : Initial s)
    (hlegal : Throughout (Enabled ks) s ops) :
    (∃ w, Run s.db (fun _ _ => True) (s.run ops) w) ∧ Within ks (s.run ops) :=
  run_of_schedule ks ops hs hlegal (hlegal.mono fun s op _ => admitted_true s op)

end Gateway
end ChannelWire
