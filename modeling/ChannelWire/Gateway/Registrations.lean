import ChannelWire.Gateway.Accounts
import ChannelWire.Gateway.Identity
import ChannelWire.Gateway.Storage

/-!
# Names that are taken

`POST /auth/register` is refused as soon as the name has a row in `users`, and rows of `users` are
made wherever a name occurs: for the user of a token, and for both ends of a direct message.  With
dev tokens disabled every token belongs to a registered user, but the other end of a direct message
may be any name the core knows: that of a command line client, or one that a session took with
`nick`.  `name_taken_iff` says that these, besides the registered ones, are exactly the names that
cannot be registered.
-/

namespace ChannelWire
namespace Gateway

open Transaction

/-! ## What makes a row of `users` -/

/-- The name is that of the sender or the recipient of a stored direct message. -/
def Party (t : Tables) (name : PyStr) : Prop :=
  ∃ m ∈ t.messages, m.kind = .dm ∧ (m.sender = name ∨ m.recipient = some name)

/-- The other end of the direct message that the event stores: a session reads the acknowledgement
of one it sent there, or one that came from there while no session of that name is open. -/
def otherEnd (s : State) : Event → Option PyStr
  | .read k =>
    (s.sessions k).bind fun x => (s.nextFrame k x).bind fun frame =>
      match gatewayEvent frame with
      | .ok (.dm sender _) => if s.active sender = 0 then some sender else none
      | .ok (.ok message) =>
        if message = py "direct message sent" then x.pendingDms.head?.map Prod.fst else none
      | _ => none
  | _ => none

/-- Where a row of `users` can come from. -/
inductive NewName (s t : State) (e : Event) (name : PyStr) : Prop where
  | devToken {u : Username} : e = .devToken u → u.name = name → NewName s t e name
  | register {u : Username} {hash : PyStr} : e = .register u hash → u.name = name →
      NewName s t e name
  | session {k : ℕ} {x : Session} : s.sessions k = some x → x.username.name = name →
      NewName s t e name
  | dm : otherEnd s e = some name → Party t.db.toTables name → NewName s t e name

variable {s t : State} {e : Event} {name : PyStr}

theorem otherEnd_sender {k : ℕ} {x : Session} {frame : Frame} {sender text : PyStr}
    (hx : s.sessions k = some x) (hnext : s.nextFrame k x = some frame)
    (hevent : gatewayEvent frame = .ok (.dm sender text)) (hactive : s.active sender = 0) :
    otherEnd s (.read k) = some sender := by
  simp only [otherEnd, hx, Option.bind_some, hnext, hevent, if_pos hactive]

theorem otherEnd_target {k : ℕ} {x : Session} {frame : Frame} {target text : PyStr}
    {rest : List (PyStr × PyStr)} (hx : s.sessions k = some x) (hnext : s.nextFrame k x = some frame)
    (hevent : gatewayEvent frame = .ok (.ok (py "direct message sent")))
    (hpending : x.pendingDms = (target, text) :: rest) : otherEnd s (.read k) = some target := by
  simp only [otherEnd, hx, Option.bind_some, hnext, hevent, if_pos, hpending, List.head?_cons,
    Option.map_some]

theorem usernames_append (t new : Tables) :
    (t.append new).usernames = t.usernames ++ new.usernames := List.map_append

theorem eq_of_mem_newUser {db : Database} {username : PyStr}
    (h : name ∈ (newUser db username).map User.username) : name = username := by
  rw [usernames_newUser] at h
  exact (mem_missing h).1

/-- A direct message that is stored has its two ends in `users`, and in `messages`. -/
theorem mem_saveDm {db db' : Database} {sender recipient body : PyStr}
    (h : db'.toTables = db.append ((sessionScope db).saveDm sender recipient body).added)
    (hname : name ∈ db'.usernames) :
    name ∈ db.usernames ∨ (name = sender ∨ name = recipient) ∧ Party db'.toTables name := by
  rw [h, usernames_append, saveDm_added] at hname
  have hparty : name = sender ∨ name = recipient → Party db'.toTables name := by
    intro hends
    refine ⟨⟨.dm, sender, none, some recipient, body⟩, ?_, rfl, ?_⟩
    · rw [h, saveDm_added]
      exact List.mem_concat_self
    · exact hends.imp Eq.symm fun hr => congrArg some hr.symm
  rcases List.mem_append.mp hname with hold | hnew
  · exact .inl hold
  · have hends : name = sender ∨ name = recipient := by
      have hnew' : name ∈ (newUser db sender ++ newUser db recipient).map User.username := hnew
      rw [List.map_append] at hnew'
      exact (List.mem_append.mp hnew').imp eq_of_mem_newUser eq_of_mem_newUser
    exact .inr ⟨hends, hparty hends⟩

theorem mem_register {db db' : Database} {username hash : PyStr}
    (h : register db username hash = some db') :
    db'.usernames = db.usernames ++ [username] := by
  have hrun : (DbOp.createUser username hash).run db = some db' := h
  rw [DbOp.tables_of_run hrun, usernames_append]
  rfl

/-- **Where a new row of `users` comes from.** -/
theorem Step.newName (h : Step s e t) (hname : name ∈ t.db.usernames) :
    name ∈ s.db.usernames ∨ NewName s t e name := by
  cases h with
  | core _ _ | connect _ _ _ | halt _ _ => exact .inl hname
  | abandon _ _ _ _ =>
    refine .inl ?_
    unfold State.abandon at hname
    simp only at hname
    split_ifs at hname <;> exact hname
  | finish _ _ =>
    refine .inl ?_
    unfold State.finish at hname
    simp only at hname
    split_ifs at hname <;> exact hname
  | devToken hdb =>
    have hrun : (DbOp.upsertUser _).run s.db = some _ := hdb
    rw [DbOp.tables_of_run hrun, usernames_append] at hname
    exact (List.mem_append.mp hname).imp id fun hnew => .devToken rfl (eq_of_mem_newUser hnew).symm
  | register hdb =>
    rw [mem_register hdb] at hname
    exact (List.mem_append.mp hname).imp id fun hnew =>
      .register rfl (List.mem_singleton.mp hnew).symm
  | @command k x loaded hx _ _ =>
    rcases x.pumpWsToCore_db s.db loaded with ⟨-, hdb⟩ | ⟨channel, -, htables⟩
    · exact .inl (hdb ▸ hname)
    · have hname' : name ∈ (x.pumpWsToCore s.db loaded).2.usernames := hname
      rw [htables, usernames_append, addMembership_added] at hname'
      exact (List.mem_append.mp hname').imp id fun hnew => .session hx (eq_of_mem_newUser hnew).symm
  | @read k x frame hx hphase hnext =>
    rcases hphase with hphase | ⟨hphase, -⟩
    · refine .inl ?_
      unfold State.read at hname
      rw [hphase] at hname
      simp only at hname
      split_ifs at hname <;> exact hname
    · rw [State.read_eq hphase] at hname ⊢
      have hround := Session.pumpCoreToWs_round s.active s.db x frame
      generalize x.pumpCoreToWs s.active s.db frame = r at hround hname ⊢
      obtain ⟨y, db⟩ := r
      cases hround with
      | raises _ _ _ | shows _ _ _ _ _ _ _ => exact .inl hname
      | text _ _ hsaves =>
        have hname' : name ∈ db.usernames := hname
        rw [hsaves.tables, usernames_append, saveChannelMessage_added] at hname'
        exact (List.mem_append.mp hname').imp id fun hnew => .session hx (eq_of_mem_newUser hnew).symm
      | received hevent hactive _ hsaves =>
        refine (mem_saveDm hsaves.tables hname).imp id ?_
        rintro ⟨rfl | rfl, hparty⟩
        · exact .dm (otherEnd_sender hx hnext hevent hactive) hparty
        · exact .session hx rfl
      | acknowledged hevent hpending hsaves =>
        refine (mem_saveDm hsaves.tables hname).imp id ?_
        rintro ⟨rfl | rfl, hparty⟩
        · exact .session hx rfl
        · exact .dm (otherEnd_target hx hnext hevent hpending) hparty

/-! ## Runs with dev tokens disabled -/

/-- The gateway, and who has registered. -/
structure Registrations where
  state : State
  registered : List Username

/-- With dev tokens disabled a session needs the token of a registered user. -/
def Event.NeedsToken (registered : List Username) : Event → Prop
  | .connect _ u => u ∈ registered
  | .devToken _ => False
  | _ => True

instance (registered : List Username) (e : Event) : Decidable (e.NeedsToken registered) := by
  cases e <;> unfold Event.NeedsToken <;> infer_instance

/-- Who has registered after the event. -/
def Event.registers (registered : List Username) : Event → List Username
  | .register u _ => registered ++ [u]
  | _ => registered

/-- The gateway from an empty database, with dev tokens disabled. -/
def registrations (admits : Registrations → Event → Prop) : Transition.System Registrations where
  init r := Initial r.state ∧ r.state.db.toTables = .empty ∧ r.registered = []
  step r r' := ∃ e, e.NeedsToken r.registered ∧ admits r e ∧ Step r.state e r'.state ∧
    r'.registered = e.registers r.registered

/-- `POST /auth/register` for the user is answered with 409: `create_user` raises. -/
def RefusesName (db : Database) (u : Username) : Prop :=
  ∀ hash, (sessionScope db).createUser u.name hash = none

theorem refusesName_iff {db : Database} {u : Username} :
    RefusesName db u ↔ u.name ∈ db.usernames := by
  constructor
  · intro h
    by_contra hnew
    have hsome : (sessionScope db).createUser u.name [] = some _ := if_neg hnew
    rw [h []] at hsome
    cases hsome
  · exact fun hmem hash => if_pos hmem

/-- **Sessions and names belong to registered users.** -/
structure RegisteredOk (r : Registrations) : Prop where
  sessions : ∀ k x, r.state.sessions k = some x → x.username ∈ r.registered
  rows : ∀ u ∈ r.registered, u.name ∈ r.state.db.usernames

variable {r r' : Registrations} {admits : Registrations → Event → Prop}

theorem Event.subset_registers (l : List Username) (e : Event) : l ⊆ e.registers l := by
  cases e with
  | register u hash => exact List.subset_append_left ..
  | _ => exact List.Subset.refl _

theorem RegisteredOk.step (hr : RegisteredOk r) (htoken : e.NeedsToken r.registered)
    (hstep : Step r.state e r'.state) (hreg : r'.registered = e.registers r.registered) :
    RegisteredOk r' := by
  have hsub : r.registered ⊆ r'.registered := hreg ▸ e.subset_registers r.registered
  constructor
  · intro k y hy
    cases hstep.becomes hy with
    | idle hx => exact hsub (hr.sessions k y hx)
    | connect _ _ _ => exact hsub htoken
    | @registered x frame hx _ _ =>
      have hname := x.registered_username frame
      exact hname ▸ hsub (hr.sessions k x hx)
    | @read x frame hx _ _ _ =>
      have hname := (Session.pumpCoreToWs_reads r.state.active r.state.db x frame).username
      exact hname ▸ hsub (hr.sessions k x hx)
    | @command x loaded hx _ _ =>
      have hname := (Session.pumpWsToCore_writes r.state.db x loaded).username
      exact hname ▸ hsub (hr.sessions k x hx)
    | @abandoned x _ _ hx _ _ _ | @finish x _ hx | @halt x hx _ => exact hsub (hr.sessions k x hx)
  · intro u hu
    have hkept : ∀ v ∈ r.registered, v.name ∈ r'.state.db.usernames := by
      intro v hv
      obtain ⟨new, hgrows⟩ := hstep.grows
      rw [hgrows.tables, usernames_append]
      exact List.mem_append_left _ (hr.rows v hv)
    rw [hreg] at hu
    cases e with
    | register v hash =>
      rcases List.mem_append.mp hu with hu | hu
      · exact hkept u hu
      · obtain rfl := List.mem_singleton.mp hu
        generalize r'.state = t at hstep ⊢
        cases hstep with
        | register hdb =>
          show u.name ∈ Tables.usernames _
          rw [mem_register hdb]
          exact List.mem_concat_self
    | _ => exact hkept u hu

theorem registeredOk (h : Transition.Reachable (registrations admits) r) : RegisteredOk r := by
  refine Transition.Reachable.invariant ?_ ?_ h
  · rintro r ⟨⟨-, hnone, -⟩, -, hreg⟩
    refine ⟨fun k x hx => ?_, fun u hu => ?_⟩
    · rw [hnone] at hx
      cases hx
    · rw [hreg] at hu
      cases hu
  · rintro r r' - hr ⟨e, htoken, -, hstep, hreg⟩
    exact hr.step htoken hstep hreg

theorem Username.eq_of_name {u v : Username} (h : u.name = v.name) : u = v := by
  obtain ⟨name, hname⟩ := u
  obtain ⟨name', hname'⟩ := v
  obtain rfl : name = name' := h
  rfl

/-- Direct messages are stored only if both ends have registered. -/
def OtherEndRegistered (r : Registrations) (e : Event) : Prop :=
  ∀ name ∈ otherEnd r.state e, ∃ u ∈ r.registered, u.name = name

instance (r : Registrations) (e : Event) : Decidable (OtherEndRegistered r e) := by
  unfold OtherEndRegistered
  infer_instance

/-- A new row that does not come from a direct message is that of a registered user. -/
theorem RegisteredOk.newName (hr : RegisteredOk r) (htoken : e.NeedsToken r.registered)
    (hnew : NewName r.state t e name) : (∃ u ∈ e.registers r.registered, u.name = name) ∨
      otherEnd r.state e = some name ∧ Party t.db.toTables name := by
  cases hnew with
  | devToken he _ =>
    subst he
    exact htoken.elim
  | @register u hash he hname =>
    subst he
    exact .inl ⟨u, List.mem_concat_self, hname⟩
  | session hx hname =>
    exact .inl ⟨_, e.subset_registers _ (hr.sessions _ _ hx), hname⟩
  | dm hmeets hparty => exact .inr ⟨hmeets, hparty⟩

theorem Party.mono {new : Tables} {db : Tables} (h : Party db name) : Party (db.append new) name := by
  obtain ⟨m, hm, hdm⟩ := h
  exact ⟨m, List.mem_append_left _ hm, hdm⟩

theorem Party.mem_usernames {db : Database} (h : Party db.toTables name) : name ∈ db.usernames := by
  obtain ⟨m, hm, -, hends⟩ := h
  obtain ⟨hsender, -, hrecipient⟩ := db.consistent.messages m hm
  rcases hends with rfl | hends
  · exact hsender
  · exact hrecipient name (Option.mem_toList.mpr hends)

/-- **Who has a row in `users`**: besides those who registered, the ends of direct messages. -/
theorem registered_or_party (h : Transition.Reachable (registrations admits) r) :
    ∀ name ∈ r.state.db.usernames,
      (∃ u ∈ r.registered, u.name = name) ∨ Party r.state.db.toTables name := by
  refine Transition.Reachable.invariant (P := fun r : Registrations =>
    ∀ name ∈ r.state.db.usernames,
      (∃ u ∈ r.registered, u.name = name) ∨ Party r.state.db.toTables name) ?_ ?_ h
  · rintro r ⟨-, hempty, -⟩ name hname
    rw [hempty] at hname
    cases hname
  · rintro r r' hreach hs ⟨e, htoken, -, hstep, hreg⟩ name hname
    rcases hstep.newName hname with hold | hnew
    · obtain ⟨new, hgrows⟩ := hstep.grows
      rcases hs name hold with ⟨u, hu, hu'⟩ | hparty
      · exact .inl ⟨u, hreg ▸ e.subset_registers _ hu, hu'⟩
      · exact .inr (hgrows.tables ▸ hparty.mono)
    · rcases (registeredOk hreach).newName htoken hnew with hreg' | ⟨-, hparty⟩
      · exact .inl (hreg ▸ hreg')
      · exact .inr hparty

/-- If no direct message has another end, only those who registered have a row. -/
theorem registered_of_row (h : Transition.Reachable (registrations OtherEndRegistered) r) :
    ∀ name ∈ r.state.db.usernames, ∃ u ∈ r.registered, u.name = name := by
  refine Transition.Reachable.invariant (P := fun r : Registrations =>
    ∀ name ∈ r.state.db.usernames, ∃ u ∈ r.registered, u.name = name) ?_ ?_ h
  · rintro r ⟨-, hempty, -⟩ name hname
    rw [hempty] at hname
    cases hname
  · rintro r r' hreach hs ⟨e, htoken, hmeets, hstep, hreg⟩ name hname
    rw [hreg]
    have hkept : ∀ name, (∃ u ∈ r.registered, u.name = name) →
        ∃ u ∈ e.registers r.registered, u.name = name := by
      rintro name ⟨u, hu, hname⟩
      exact ⟨u, e.subset_registers _ hu, hname⟩
    rcases hstep.newName hname with hold | hnew
    · exact hkept name (hs name hold)
    · rcases (registeredOk hreach).newName htoken hnew with hreg' | ⟨hmeet, -⟩
      · exact hreg'
      · exact hkept name (hmeets name hmeet)

/-- **When a name is taken.**  With dev tokens disabled, over every run of the requests and sessions
of any users and with any other clients of the core: if direct messages are stored only when both
ends have registered, `POST /auth/register` is refused for registered users only.  In every run it
is refused for exactly the registered users and the ends of stored direct messages. -/
theorem name_taken_iff (r : Registrations) (u : Username) :
    (Transition.Reachable (registrations OtherEndRegistered) r →
      RefusesName r.state.db u → u ∈ r.registered) ∧
    (Transition.Reachable (registrations fun _ _ => True) r →
      (RefusesName r.state.db u ↔ u ∈ r.registered ∨ Party r.state.db.toTables u.name)) := by
  refine ⟨fun h hrefuses => ?_, fun h => ?_⟩
  · obtain ⟨v, hv, hname⟩ := registered_of_row h u.name (refusesName_iff.mp hrefuses)
    rwa [← Username.eq_of_name hname]
  · rw [refusesName_iff]
    constructor
    · intro hmem
      refine (registered_or_party h u.name hmem).imp ?_ id
      rintro ⟨v, hv, hname⟩
      rwa [← Username.eq_of_name hname]
    · rintro (hu | hparty)
      · exact (registeredOk h).rows u hu
      · exact hparty.mem_usernames

/-! ## Two runs -/

/-- The core has just started, and nobody has registered. -/
def noUsers : State := { start with db := noRows }

/-- `alice` has registered. -/
def aliceRegistered : State :=
  { start with db := ⟨⟨[⟨alice.name, some (py "hash")⟩], [], [], []⟩, by decide⟩ }

/-- The events of a schedule need no token but that of `alice`, and register nobody. -/
def AsAlice (_ : State) (e : Event) : Prop :=
  e.NeedsToken [alice] ∧ e.registers [alice] = [alice]

theorem reachable_aliceRegistered {admits : Registrations → Event → Prop}
    (hadmits : admits ⟨noUsers, []⟩ (.register alice (py "hash"))) :
    Transition.Reachable (registrations admits) ⟨aliceRegistered, [alice]⟩ := by
  have hregister : register noUsers.db alice.name (py "hash") = some aliceRegistered.db := rfl
  have hstep : Step noUsers (.register alice (py "hash")) aliceRegistered := .register hregister
  have hinit : (registrations admits).init ⟨noUsers, []⟩ :=
    ⟨⟨⟨4096, _, by decide, rfl⟩, rfl, rfl⟩, rfl, rfl⟩
  exact .step (.init hinit) ⟨.register alice (py "hash"), trivial, hadmits, hstep, rfl⟩

/-- The session of `alice` is a run with her token. -/
theorem reachable_of_steps {admits : Registrations → Event → Prop} {s t : State}
    (h : Transition.Reachable (registrations admits) ⟨s, [alice]⟩)
    (hsteps : Steps (fun s e => AsAlice s e ∧ admits ⟨s, [alice]⟩ e) s t) :
    Transition.Reachable (registrations admits) ⟨t, [alice]⟩ := by
  induction hsteps with
  | refl => exact h
  | tail _ hst ih =>
    obtain ⟨e, ⟨⟨htoken, hreg⟩, hadmits⟩, hstep⟩ := hst
    exact ih.step ⟨e, htoken, hadmits, hstep, hreg.symm⟩

instance (s : State) (e : Event) : Decidable (AsAlice s e) := by
  unfold AsAlice
  infer_instance

/-- A schedule of the session of `alice`. -/
theorem reachable_of_ops {admits : Registrations → Event → Prop} {ops : List Op}
    (hadmits : admits ⟨noUsers, []⟩ (.register alice (py "hash")))
    (hlegal : Throughout (Enabled [1]) aliceRegistered ops)
    (hadmitted : Throughout (Admitted fun s e => AsAlice s e ∧ admits ⟨s, [alice]⟩ e)
      aliceRegistered ops) :
    Transition.Reachable (registrations admits) ⟨aliceRegistered.run ops, [alice]⟩ :=
  reachable_of_steps (reachable_aliceRegistered hadmits)
    (schedule_steps (.init ⟨⟨4096, _, by decide, rfl⟩, rfl, rfl⟩) (fun _ _ => rfl) hlegal hadmitted).1

instance (admits : State → Event → Prop) [∀ s e, Decidable (admits s e)] (s : State) (op : Op) :
    Decidable (Admitted admits s op) :=
  match op with
  | .connect _ _ | .deliver _ _ => inferInstanceAs (Decidable (_ ∧ _))
  | .flush _ | .read _ | .command _ _ | .finish _ _ | .halt _ =>
    inferInstanceAs (Decidable (admits _ _))

theorem name_taken_iff_dmOnly : ∃ r : Registrations, r.state = aliceRegistered.run dmOnly ∧
    r.state.db.messages.length = 1 ∧ ∀ u, RefusesName r.state.db u → u = alice := by
  have hreach : Transition.Reachable (registrations OtherEndRegistered)
      ⟨aliceRegistered.run dmOnly, [alice]⟩ :=
    reachable_of_ops (by decide +kernel) (by decide +kernel) (by decide +kernel)
  refine ⟨⟨aliceRegistered.run dmOnly, [alice]⟩, rfl, by decide +kernel, fun u hrefuses => ?_⟩
  exact List.mem_singleton.mp ((name_taken_iff _ u).1 hreach hrefuses)

/-- `alice` takes the name `bob` with `nick` and writes to herself: nobody can register as `bob`. -/
theorem name_taken_by_dm : ∃ r, Transition.Reachable (registrations fun _ _ => True) r ∧
    r.registered = [alice] ∧ RefusesName r.state.db bob ∧ bob ∉ r.registered := by
  have hreach : Transition.Reachable (registrations fun _ _ => True)
      ⟨aliceRegistered.run dmAsBob, [alice]⟩ :=
    reachable_of_ops trivial (by decide +kernel) (by decide +kernel)
  exact ⟨_, hreach, rfl, refusesName_iff.mpr (by decide +kernel), by decide⟩

end Gateway
end ChannelWire
