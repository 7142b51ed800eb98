import ChannelWire.Gateway.Storage

/-!
# What a browser can send

One round of `pump_ws_to_core`, from the text that `receive_text` returned to the next one: how it
ends (`RoundEnd`), and what it did.  The `except` around `json.loads` and
`core_payload_for_command` catches a `ValueError`.  A JSON value that is no object has no `get`, an
`AttributeError`; one that is nested too deep is a `RecursionError`; and a row that the database does
not take is raised behind the `try`.  All of these end the task.

What the interpreter and the database do with such texts is an `Environment`.  When neither
interferes, the round is that of the session (`round_eq_pumpWsToCore`).
-/

namespace ChannelWire
namespace Gateway

/-- The interpreter and the database. -/
structure Environment where
  /-- `json.loads`, or `str` of the `type`, exceeds the recursion limit. -/
  nestsTooDeep : PyStr → Bool
  /-- A literal has more digits than `int` converts, a `ValueError`. -/
  tooManyDigits : PyStr → Bool
  /-- The `ValueError` of `json.loads`. -/
  loadsError : PyStr → ValueError
  /-- The database takes the name: `String(32)` is a bound for PostgreSQL. -/
  storesChannel : PyStr → Bool

/-- How a round of a task ends: with the next round, with `return`, or with an exception. -/
inductive RoundEnd where
  | continues | returns | raises
  deriving DecidableEq

/-- What a round leaves behind. -/
structure Round where
  session : Session
  db : Database
  ending : RoundEnd

/-- The end of a round that raises. -/
def Round.raised (x : Session) (db : Database) : Round := ⟨{ x with writing := false }, db, .raises⟩

/-- The end of a round with `core_send`. -/
def Round.coreSend (x : Session) (db : Database) (msgType : ClientMsgType) (payload : Bytes)
    (dm : Option (PyStr × PyStr)) : Round :=
  ⟨x.coreSend msgType payload dm, db,
    match encodeFrame msgType.toByte payload with
    | .error _ => .raises
    | .ok _ => if msgType = .quit then .returns else .continues⟩

namespace Environment

variable (env : Environment)

/-- `json.loads`. -/
def jsonLoads (raw : PyStr) : Except ValueError Json :=
  if env.tooManyDigits raw then .error (env.loadsError raw)
  else
    match JsonText.loads raw with
    | none => .error (env.loadsError raw)
    | some v => .ok v

/-- One round of `pump_ws_to_core`, with the text that was received. -/
def round (db : Database) (x : Session) (raw : PyStr) : Round :=
  if env.nestsTooDeep raw then .raised x db
  else
    match env.jsonLoads raw with
    | .error e => ⟨x.sendJson (.refused e), db, .continues⟩
    | .ok (.object message) =>
      match corePayloadForCommand message with
      | .error e => ⟨x.sendJson (.refused e), db, .continues⟩
      | .ok (msgType, payload) =>
        match msgType with
        | .join | .switch =>
          let channel := (Dict.getStr message "channel").getD []
          if env.storesChannel channel then
            match ((sessionScope db).addMembership x.username.name channel).commit with
            | none => .raised x db
            | some db => .coreSend x db msgType payload none
          else .raised x db
        | .dm =>
          let dm := ((Dict.getStr message "to").getD [], (Dict.getStr message "text").getD [])
          .coreSend { x with pendingDms := x.pendingDms ++ [dm] } db msgType payload (some dm)
        | _ => .coreSend x db msgType payload none
    | .ok _ => .raised x db

/-- The text is no JSON, or it is an object that neither the interpreter nor the database gives up
on. -/
def Takes (raw : PyStr) : Prop :=
  env.nestsTooDeep raw = false ∧
    ∀ v, env.jsonLoads raw = .ok v → (∃ message, v = .object message) ∧
      ∀ channel ∈ joinedChannel (.ok v), env.storesChannel channel = true

end Environment

/-- The browser is told of an error, and nothing else happens. -/
def Refused (db : Database) (x : Session) (r : Round) : Prop :=
  ∃ e, r = ⟨x.sendJson (.refused e), db, .continues⟩

/-- One frame is written to the core, and the loop ends if it is a `QUIT`. -/
def Forwarded (x : Session) (r : Round) : Prop :=
  ∃ msgType payload dm, payload.length < 4294967296 ∧
    r.session.sent = x.sent ++ [⟨⟨ClientMsgType.toByte msgType, payload⟩, dm⟩] ∧
    r.session.shown = x.shown ∧ r.ending = if msgType = .quit then .returns else .continues

variable {env : Environment} {db : Database} {x : Session} {raw : PyStr}

/-! ## Frames -/

theorem length_fields_le {encoded : List Bytes} (h : ∀ b ∈ encoded, b.length ≤ 65535) :
    (encoded.map stringField).flatten.length ≤ encoded.length * 65537 := by
  induction encoded with
  | nil => exact Nat.le_refl 0
  | cons b encoded ih =>
    have hb := h b List.mem_cons_self
    have hrest := ih fun c hc => h c (List.mem_cons_of_mem b hc)
    rw [List.map_cons, List.flatten_cons, List.length_append, length_stringField, List.length_cons]
    omega

/-- The strings of a command make a payload that a frame can have. -/
theorem length_packed_lt {message : Dict} {msgType : ClientMsgType} {payload : Bytes}
    (h : corePayloadForCommand message = .ok (msgType, payload)) : payload.length < 4294967296 := by
  obtain ⟨-, hchecks, hpayload⟩ := corePayloadForCommand_ok h
  obtain ⟨encoded, hencoded, hlen, rfl⟩ := stringPayload_ok hpayload
  have hcount : encoded.length ≤ 2 := by
    rw [← hencoded.length_eq]
    cases msgType with
    | join | switch | leave | say | nick =>
      obtain ⟨v, hv, -⟩ := hchecks
      rw [hv]
      exact Nat.le_succ 1
    | dm =>
      obtain ⟨v, w, hv, -⟩ := hchecks
      rw [hv]
      exact Nat.le_refl 2
    | who | list | quit | stats | hello => exact Nat.zero_le 2
  have hsum := length_fields_le hlen
  omega

/-- **A command that was packed is written as one frame.** -/
theorem forwarded_coreSend {message : Dict} {msgType : ClientMsgType} {payload : Bytes}
    (h : corePayloadForCommand message = .ok (msgType, payload)) {z : Session} {db' : Database}
    {dm : Option (PyStr × PyStr)} (hsent : z.sent = x.sent) (hshown : z.shown = x.shown) :
    Forwarded x (.coreSend z db' msgType payload dm) := by
  have hlen := length_packed_lt h
  have hencode : encodeFrame msgType.toByte payload = .ok _ :=
    encodeFrame_of_le (Nat.le_of_lt_succ hlen)
  refine ⟨msgType, payload, dm, hlen, ?_, ?_, ?_⟩
  · show (z.coreSend msgType payload dm).sent = _
    unfold Session.coreSend
    rw [hencode, ← hsent]
  · show (z.coreSend msgType payload dm).shown = _
    unfold Session.coreSend
    rw [hencode, ← hshown]
  · show (match encodeFrame msgType.toByte payload with
      | .error _ => RoundEnd.raises
      | .ok _ => if msgType = ClientMsgType.quit then RoundEnd.returns else .continues) = _
    rw [hencode]

/-! ## Rounds -/

/-- A round that raises neither tells the browser nor writes to the core. -/
theorem not_ok_raised (x : Session) (db db' : Database) :
    ¬ (Refused db x (.raised x db') ∨ Forwarded x (.raised x db')) := by
  rintro (⟨e, h⟩ | ⟨msgType, payload, dm, -, hsent, -⟩)
  · exact RoundEnd.noConfusion (congrArg Round.ending h)
  · have hlen := congrArg List.length hsent
    rw [List.length_append, List.length_singleton] at hlen
    exact absurd hlen (Nat.ne_of_lt (Nat.lt_succ_self _))

/-- **Every text that is taken is refused or forwarded.** -/
theorem ok_of_takes (h : env.Takes raw) :
    Refused db x (env.round db x raw) ∨ Forwarded x (env.round db x raw) := by
  obtain ⟨hdeep, hload⟩ := h
  unfold Environment.round
  rw [if_neg (Bool.eq_false_iff.mp hdeep)]
  cases hv : env.jsonLoads raw with
  | error e => exact Or.inl ⟨e, rfl⟩
  | ok v =>
    obtain ⟨⟨message, rfl⟩, hstores⟩ := hload v hv
    simp only
    cases hm : corePayloadForCommand message with
    | error e => exact Or.inl ⟨e, rfl⟩
    | ok r =>
      obtain ⟨msgType, payload⟩ := r
      refine Or.inr ?_
      cases msgType with
      | join | switch =>
        have hchannel : env.storesChannel ((Dict.getStr message "channel").getD []) = true := by
          refine hstores _ ?_
          simp only [joinedChannel, hm, Option.mem_def]
        obtain ⟨db', hdb'⟩ := Transaction.addMembership_commits db x.username.name
          ((Dict.getStr message "channel").getD [])
        simp only
        rw [if_pos hchannel, hdb']
        exact forwarded_coreSend hm rfl rfl
      | dm => exact forwarded_coreSend hm rfl rfl
      | who | list | quit | stats | hello | leave | say | nick => exact forwarded_coreSend hm rfl rfl

/-- **Any other text ends the loop with an exception.** -/
theorem round_of_not_takes (h : ¬ env.Takes raw) : env.round db x raw = .raised x db := by
  unfold Environment.round
  by_cases hdeep : env.nestsTooDeep raw = true
  · exact if_pos hdeep
  · rw [if_neg hdeep]
    have hload : ¬ ∀ v, env.jsonLoads raw = .ok v → (∃ message, v = .object message) ∧
        ∀ channel ∈ joinedChannel (.ok v), env.storesChannel channel = true :=
      fun hload => h ⟨Bool.eq_false_iff.mpr hdeep, hload⟩
    cases hv : env.jsonLoads raw with
    | error e => exact absurd (fun v hv' => by rw [hv] at hv'; cases hv') hload
    | ok v =>
      cases v with
      | object message =>
        -- the database does not take the channel of a `join` or `switch`
        have hchannel : ∃ channel ∈ joinedChannel (.ok (.object message)),
            env.storesChannel channel = false := by
          by_contra hall
          refine hload fun v hv' => ?_
          obtain rfl := Except.ok.inj (hv.symm.trans hv')
          refine ⟨⟨message, rfl⟩, fun channel hmem => ?_⟩
          by_contra hno
          exact hall ⟨channel, hmem, Bool.eq_false_iff.mpr hno⟩
        obtain ⟨channel, hmem, hno⟩ := hchannel
        simp only [joinedChannel, Option.mem_def] at hmem
        simp only
        split at hmem
        · next payload hm =>
          rw [hm]
          simp only
          rw [Option.some.inj hmem, if_neg (Bool.eq_false_iff.mp hno)]
        · next payload hm =>
          rw [hm]
          simp only
          rw [Option.some.inj hmem, if_neg (Bool.eq_false_iff.mp hno)]
        · cases hmem
      | null | bool | number | string | array => rfl

/-- **The round is that of the session**, if neither the interpreter nor the database gives up. -/
theorem round_eq_pumpWsToCore (hdeep : env.nestsTooDeep raw = false)
    (hstores : ∀ channel ∈ joinedChannel (env.jsonLoads raw), env.storesChannel channel = true) :
    ((env.round db x raw).session, (env.round db x raw).db) =
      x.pumpWsToCore db (env.jsonLoads raw) := by
  unfold Environment.round Session.pumpWsToCore
  rw [if_neg (Bool.eq_false_iff.mp hdeep)]
  cases hv : env.jsonLoads raw with
  | error e => rfl
  | ok v =>
    cases v with
    | object message =>
      simp only
      cases hm : corePayloadForCommand message with
      | error e => rfl
      | ok r =>
        obtain ⟨msgType, payload⟩ := r
        cases msgType with
        | join | switch =>
          have hchannel : env.storesChannel ((Dict.getStr message "channel").getD []) = true := by
            refine hstores _ ?_
            simp only [hv, joinedChannel, hm, Option.mem_def]
          simp only
          rw [if_pos hchannel]
          cases ((sessionScope db).addMembership x.username.name
            ((Dict.getStr message "channel").getD [])).commit <;> rfl
        | dm | who | list | quit | stats | hello | leave | say | nick => rfl
    | null | bool | number | string | array => rfl

/-- **Input ends no session, unless its JSON is no object.**  A round of `pump_ws_to_core` tells the
browser of an error and changes nothing, or writes one frame to the core and goes on unless it is a
`QUIT`, if and only if the text is no JSON, or is an object that neither the interpreter nor the
database gives up on. -/
theorem round_ok_iff (env : Environment) (db : Database) (x : Session) (raw : PyStr) :
    Refused db x (env.round db x raw) ∨ Forwarded x (env.round db x raw) ↔ env.Takes raw := by
  refine ⟨fun h => ?_, ok_of_takes⟩
  by_contra hnot
  rw [round_of_not_takes hnot] at h
  exact not_ok_raised x db db h

/-- The text `[]` ends a session, where the interpreter and the database take everything. -/
theorem session_ended_by_list :
    ¬ ∀ (db : Database) (x : Session) (raw : PyStr),
      let env : Environment := ⟨fun _ => false, fun _ => false, fun _ => .unpack, fun _ => true⟩
      Refused db x (env.round db x raw) ∨ Forwarded x (env.round db x raw) := by
  intro h
  have hempty : Tables.empty.Consistent := by decide
  have hok := h ⟨.empty, hempty⟩ (openRegisteredCore ⟨py "ada", by decide⟩) (py "[]")
  have hnot : ¬ Environment.Takes ⟨fun _ => false, fun _ => false, fun _ => .unpack, fun _ => true⟩
      (py "[]") := by
    intro htakes
    obtain ⟨message, hmessage⟩ := (htakes.2 (.array []) rfl).1
    cases hmessage
  simp only [round_of_not_takes hnot] at hok
  exact not_ok_raised _ _ _ hok

end Gateway
end ChannelWire
