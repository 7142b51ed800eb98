import ChannelWire.Foundation.Base64Url
import ChannelWire.Foundation.StrictJson
import ChannelWire.Frontend.Screen
import ChannelWire.Gateway.Tokens

/-!
# The stored session

`startSession` stores the token and the name of its user as a JSON text, and the next rendering of
the page takes them back if `readStoredSession` finds a payload in the token that has not expired.

The tokens are those of the gateway.  Of their format only matters that the middle one of three
parts is the payload (`Jwt.Lawful`).  The page takes a session back exactly as long as the gateway
accepts its token (`reload_keeps_session`).
-/

namespace ChannelWire
namespace Frontend

open Gateway (PyStr py Username Claims Jwt createToken verifyToken tokenUsername payloadText
  asciiBytes base64Url isPlain_name isPlain_key)
open JsonText (Json ch isDigit quoted stringified numeral members IsPlain noCapitals)
open Utf8

/-! ## Reading -/

/-- `split(".")[1]`. -/
def secondPart (s : PyStr) : Option PyStr :=
  match s.dropWhile (· ≠ ch '.') with
  | [] => none
  | _ :: rest => some (rest.takeWhile (· ≠ ch '.'))

/-- `normalizedPayload`: the two calls of `replace`. -/
def normalizedPayload (s : PyStr) : PyStr :=
  s.map fun c => if c = ch '-' then ch '+' else if c = ch '_' then ch '/' else c

/-- `paddedPayload`: `padEnd` up to whole groups.  A text with a code point beyond ASCII may have
another length in JavaScript, but `atob` has no result for it either way. -/
def paddedPayload (s : PyStr) : PyStr :=
  s ++ List.replicate ((s.length + 3) / 4 * 4 - s.length) (ch '=')

/-- `atob`; `none` stands for the `InvalidCharacterError`. -/
def atob (s : PyStr) : Option PyStr :=
  if s.all fun c => c.val < 0x80 then
    (Base64.forgivingDecode (s.map fun c => UInt8.ofNat c.val)).map (·.map ofByte)
  else none

/-- A property that is a string and not empty. -/
def stringProperty (key : String) : Json → Option PyStr
  | .object fields =>
    match fields.lookup (py key) with
    | some (.string (c :: s)) => some (c :: s)
    | _ => none
  | _ => none

/-- A property that is a number. -/
def numberProperty (key : String) : Json → Option ℚ
  | .object fields =>
    match fields.lookup (py key) with
    | some (.number literal) => some (JsonText.decimal literal)
    | _ => none
  | _ => none

/-- The session in a stored text; `none` stands for the calls of `clearStoredSession`.  `now` is
`Date.now()`. -/
def sessionIn (stored : PyStr) (now : ℕ) : Option (PyStr × PyStr) := do
  let session ← JsonText.parse stored
  let token ← stringProperty "token" session
  let username ← stringProperty "username" session
  let encodedPayload ← (secondPart token).filter (· ≠ [])
  let payload ← atob (paddedPayload (normalizedPayload encodedPayload))
  let payload ← JsonText.parse payload
  let exp ← numberProperty "exp" payload
  if exp ≤ now / 1000 then none else some (token, username)

/-- `readStoredSession`, with what is stored afterwards. -/
def readStoredSession (stored : Option PyStr) (now : ℕ) : Option (PyStr × PyStr) × Option PyStr :=
  match stored with
  | none | some [] => (none, stored)
  | some text =>
    match sessionIn text now with
    | none => (none, none)
    | some session => (some session, stored)

/-! ## Writing -/

/-- What `startSession` stores. -/
def storedText (session : PyStr × PyStr) : PyStr :=
  ch '\x7b' :: (quoted (py "token") ++ ch ':' :: (stringified session.1 ++ ch ',' ::
    (quoted (py "username") ++ ch ':' :: (stringified session.2 ++ [ch '\x7d']))))

/-- The page, rendered for the first time again. -/
def Dashboard.reload (d : Dashboard) (now : ℕ) : Dashboard :=
  .first (readStoredSession (d.storedSession.map storedText) now).1

variable {jwt : Jwt} {c : Claims} {u : Username} {s : PyStr} {bytes : Bytes} {time now : ℕ}

/-! ## The payload -/

/-- The payload is put back to the symbols of base64. -/
theorem paddedPayload_base64Url (bytes : Bytes) :
    paddedPayload (normalizedPayload (base64Url bytes)) = (Base64.encode bytes).map ofByte := by
  have hsymbol : ∀ n < 256, (fun c => if c = ch '-' then ch '+' else if c = ch '_' then ch '/'
      else c) (ofByte (UInt8.ofNat n)) = ofByte (Base64.ofUrl (UInt8.ofNat n)) := by
    decide +kernel
  have hmap : normalizedPayload (base64Url bytes) =
      ((Base64.encodeUrl bytes).map Base64.ofUrl).map ofByte := by
    rw [normalizedPayload, base64Url, List.map_map, List.map_map]
    refine List.map_congr_left fun b _ => ?_
    have hb := hsymbol b.toNat b.toNat_lt
    rwa [UInt8.ofNat_toNat] at hb
  rw [hmap, paddedPayload, List.length_map, ← Base64.padded_encodeUrl bytes, Base64.padded,
    List.map_append, List.map_replicate]
  rfl

/-- `atob` reads an encoding. -/
theorem atob_encode (bytes : Bytes) :
    atob ((Base64.encode bytes).map ofByte) = some (bytes.map ofByte) := by
  have hascii : ((Base64.encode bytes).map ofByte).all (fun c => c.val < 0x80) = true := by
    refine List.all_eq_true.mpr fun c hc => decide_eq_true ?_
    obtain ⟨b, hb, rfl⟩ := List.mem_map.mp hc
    rw [val_ofByte]
    exact (Base64.isSymbol_of_mem_encode hb).lt
  have hsame : ((Base64.encode bytes).map ofByte).map (fun c => UInt8.ofNat c.val) =
      Base64.encode bytes := by
    rw [List.map_map]
    refine (List.map_congr_left fun b _ => ?_).trans (List.map_id _)
    show UInt8.ofNat (ofByte b).val = b
    rw [val_ofByte, UInt8.ofNat_toNat]
  rw [atob, if_pos hascii, hsame, Base64.forgivingDecode_encode]
  rfl

theorem base64Url_ne_nil (h : bytes ≠ []) : base64Url bytes ≠ [] := by
  intro hnil
  have hread := atob_encode bytes
  rw [← paddedPayload_base64Url, hnil] at hread
  have hempty : atob (paddedPayload (normalizedPayload [])) = some [] := by decide
  rw [hempty] at hread
  exact h (List.map_eq_nil_iff.mp (Option.some.inj hread).symm)

/-- The middle one of three parts. -/
theorem secondPart_append {first second third : PyStr} (hfirst : ch '.' ∉ first)
    (hsecond : ch '.' ∉ second) :
    secondPart (first ++ ch '.' :: (second ++ ch '.' :: third)) = some second := by
  have hdot : ∀ part : PyStr, ch '.' ∉ part → ∀ c ∈ part, decide (c ≠ ch '.') = true := by
    intro part hpart c hc
    refine decide_eq_true ?_
    rintro rfl
    exact hpart hc
  have hnot : decide (ch '.' ≠ ch '.') = false := by decide
  rw [secondPart, List.dropWhile_append_of_pos (hdot first hfirst), List.dropWhile_cons, hnot]
  simp only [Bool.false_eq_true, if_false]
  rw [List.takeWhile_append_of_pos (hdot second hsecond), List.takeWhile_cons, hnot]
  simp only [Bool.false_eq_true, if_false, List.append_nil]

theorem parse_payloadText (h : tokenUsername c.sub = true) :
    JsonText.parse (payloadText c) = some (.object c.payload) := by
  have hsub : ∀ x ∈ c.sub, IsPlain x := fun x hx => (isPlain_name (u := ⟨c.sub, h⟩) hx).1
  obtain ⟨hk1, -⟩ := isPlain_key "sub" (by decide)
  obtain ⟨hk2, -⟩ := isPlain_key "iat" (by decide)
  obtain ⟨hk3, -⟩ := isPlain_key "exp" (by decide)
  have hstrict : noCapitals .outside (payloadText c) = true := by
    simp (disch := decide) only [payloadText, JsonText.noCapitals_cons,
      JsonText.noCapitals_quoted hk1, JsonText.noCapitals_quoted hk2,
      JsonText.noCapitals_quoted hk3, JsonText.noCapitals_quoted hsub, JsonText.noCapitals_numeral]
    rfl
  rw [JsonText.parse, if_pos hstrict, Gateway.loads_payloadText h]

/-- A stored session is an object with its two texts. -/
theorem parse_storedText {token username : PyStr} (htoken : ∀ x ∈ token, IsPlain x ∧ x.val < 0x80)
    (hname : ∀ x ∈ username, IsPlain x ∧ x.val < 0x80) :
    JsonText.parse (storedText (token, username)) =
      some (.object [(py "token", .string token), (py "username", .string username)]) := by
  obtain ⟨hk1, -⟩ := isPlain_key "token" (by decide)
  obtain ⟨hk2, -⟩ := isPlain_key "username" (by decide)
  have hs1 : ∀ x ∈ token, IsPlain x := fun x hx => (htoken x hx).1
  have hs2 : ∀ x ∈ username, IsPlain x := fun x hx => (hname x hx).1
  rw [storedText, JsonText.stringified_plain htoken, JsonText.stringified_plain hname]
  have hstrict : noCapitals .outside (ch '\x7b' :: (quoted (py "token") ++ ch ':' ::
      (quoted token ++ ch ',' :: (quoted (py "username") ++ ch ':' ::
        (quoted username ++ [ch '\x7d']))))) = true := by
    simp (disch := decide) only [JsonText.noCapitals_cons, JsonText.noCapitals_quoted hk1,
      JsonText.noCapitals_quoted hk2, JsonText.noCapitals_quoted hs1,
      JsonText.noCapitals_quoted hs2]
    rfl
  have hloads : JsonText.loads (ch '\x7b' :: (quoted (py "token") ++ ch ':' ::
      (quoted token ++ ch ',' :: (quoted (py "username") ++ ch ':' ::
        (quoted username ++ [ch '\x7d']))))) =
      some (.object [(py "token", .string token), (py "username", .string username)]) := by
    refine JsonText.loads_members (n := 3) (fun m hm => ?_) ?_
    · obtain ⟨m, rfl⟩ := Nat.exists_eq_add_of_le' hm
      have hkeys : py "token" ≠ py "username" := by decide
      rw [JsonText.members_string hk1 hs1 [] (m + 1) (.inl rfl), if_neg (by decide),
        JsonText.skipBlanks_quoted, JsonText.members_string hk2 hs2 _ m (.inr rfl), if_pos rfl]
      simp only [JsonText.setItem, if_neg hkeys]
    · rw [JsonText.quoted_append]
      simp only [List.length_cons, List.length_append]
      omega
  rw [JsonText.parse, if_pos hstrict, hloads]

/-! ## Taking a session back -/

theorem secondPart_token (hjwt : jwt.Lawful) (h : tokenUsername c.sub = true) :
    secondPart (jwt.encode c) = some (base64Url (asciiBytes (payloadText c))) := by
  obtain ⟨header, signature, hencode⟩ := hjwt.encode c h
  have hnot : ∀ b, ch '.' ∉ base64Url b := fun b hx => (Gateway.of_mem_base64Url hx).2.1 rfl
  rw [hencode]
  exact secondPart_append (hnot header) (hnot _)

theorem lookup_of_ne {fields : List (PyStr × Json)} {key k : PyStr} (h : key ≠ k) (v : Json) :
    List.lookup key ((k, v) :: fields) = List.lookup key fields := by
  rw [List.lookup_cons, beq_false_of_ne h]

theorem stringProperty_of_lookup {fields : List (PyStr × Json)} {key : String}
    (h : fields.lookup (py key) = some (.string s)) (hne : s ≠ []) :
    stringProperty key (.object fields) = some s := by
  cases s with
  | nil => exact absurd rfl hne
  | cons x s => rw [stringProperty, h]

theorem numberProperty_of_lookup {fields : List (PyStr × Json)} {key : String} {n : ℕ}
    (h : fields.lookup (py key) = some (.number (numeral n))) :
    numberProperty key (.object fields) = some (n : ℚ) := by
  rw [numberProperty, h]
  exact congrArg some (JsonText.decimal_numeral n)

theorem readStoredSession_of_some {session : PyStr × PyStr} (h : sessionIn s now = some session) :
    readStoredSession (some s) now = (some session, some s) := by
  cases s with
  | nil => cases h
  | cons x s =>
    simp only [readStoredSession, h]

theorem readStoredSession_of_none (hne : s ≠ []) (h : sessionIn s now = none) :
    readStoredSession (some s) now = (none, none) := by
  cases s with
  | nil => exact absurd rfl hne
  | cons x s =>
    simp only [readStoredSession, h]

/-- **A stored session is taken back until its token expires.** -/
theorem readStoredSession_storedText (hjwt : jwt.Lawful) (u : Username) (time now : ℕ) :
    readStoredSession (some (storedText (createToken jwt time u.name, u.name))) now =
      if now < 1000 * (time + 24 * 60 * 60) then
        (some (createToken jwt time u.name, u.name),
          some (storedText (createToken jwt time u.name, u.name)))
      else (none, none) := by
  let c : Claims := ⟨u.name, time, time + 24 * 60 * 60⟩
  have hpart := secondPart_token (c := c) hjwt u.valid
  have hplain : ∀ x ∈ jwt.encode c, IsPlain x ∧ x.val < 0x80 := fun x hx =>
    ⟨(hjwt.plain (c := c) u.valid hx).1, (hjwt.plain (c := c) u.valid hx).2.2⟩
  have hname : ∀ x ∈ u.name, IsPlain x ∧ x.val < 0x80 := fun x hx => isPlain_name hx
  have hsession := parse_storedText hplain hname
  have hne : jwt.encode c ≠ [] := hjwt.ne_nil u.valid
  have hnamene : u.name ≠ [] := by
    intro hnil
    have hlen := u.spec.1
    rw [hnil] at hlen
    cases hlen
  have htoken : stringProperty "token" (.object [(py "token", .string (jwt.encode c)),
      (py "username", .string u.name)]) = some (jwt.encode c) :=
    stringProperty_of_lookup List.lookup_cons_self hne
  have husername : stringProperty "username" (.object [(py "token", .string (jwt.encode c)),
      (py "username", .string u.name)]) = some u.name :=
    stringProperty_of_lookup ((lookup_of_ne (by decide) _).trans List.lookup_cons_self) hnamene
  have hpayload : atob (paddedPayload (normalizedPayload
      (base64Url (asciiBytes (payloadText c))))) = some (payloadText c) := by
    rw [paddedPayload_base64Url, atob_encode,
      Gateway.map_asciiBytes (Gateway.payloadText_lt u.valid)]
  have hexp : numberProperty "exp" (.object c.payload) = some (c.exp : ℚ) :=
    numberProperty_of_lookup ((lookup_of_ne (by decide) _).trans
      ((lookup_of_ne (by decide) _).trans List.lookup_cons_self))
  have hpartne : (some (base64Url (asciiBytes (payloadText c)))).filter (· ≠ []) =
      some (base64Url (asciiBytes (payloadText c))) := by
    refine Option.filter_some_pos (decide_eq_true (base64Url_ne_nil ?_))
    exact List.cons_ne_nil _ _
  have hin : sessionIn (storedText (jwt.encode c, u.name)) now =
      if (c.exp : ℚ) ≤ now / 1000 then none else some (jwt.encode c, u.name) := by
    simp only [sessionIn, hsession, Option.bind_eq_bind, Option.bind_some, htoken, husername, hpart,
      hpartne, hpayload, parse_payloadText (c := c) u.valid, hexp]
  have hexpired : (c.exp : ℚ) ≤ now / 1000 ↔ ¬ now < 1000 * (time + 24 * 60 * 60) := by
    rw [not_lt, le_div_iff₀ (by norm_num), mul_comm]
    exact_mod_cast Iff.rfl
  show readStoredSession (some (storedText (jwt.encode c, u.name))) now = _
  by_cases hday : now < 1000 * (time + 24 * 60 * 60)
  · rw [if_neg (not_not_intro hday ∘ hexpired.mp)] at hin
    rw [if_pos hday]
    exact readStoredSession_of_some hin
  · rw [if_pos (hexpired.mpr hday)] at hin
    rw [if_neg hday]
    exact readStoredSession_of_none (List.cons_ne_nil _ _) hin

/-- **The page keeps a session as long as the gateway does.**  After any run of the page, it is
rendered for the first time again: without a session it has none; and a session with a token that
the gateway gave its user is kept, with its token and its name, if the gateway still accepts the
token for this user, and is gone from the page and from the storage if the gateway refuses it. -/
theorem reload_keeps_session (hjwt : jwt.Lawful) {session : Option (PyStr × PyStr)}
    {es : List ScreenEvent} {d : Dashboard} (h : (Dashboard.first session).goes es = some d)
    (now : ℕ) :
    (d.storedSession = none → d.tokenRef = [] ∧ d.reload now = .initial) ∧
    ∀ (u : Username) (time : ℕ), d.storedSession = some (createToken jwt time u.name, u.name) →
      time ≤ now / 1000 →
      d.tokenRef = createToken jwt time u.name ∧ d.authenticatedUsername = u.name ∧
      (readStoredSession (d.storedSession.map storedText) now).2 =
        (d.reload now).storedSession.map storedText ∧
      (verifyToken jwt (now / 1000) d.tokenRef = .ok u.name ∧
          d.reload now = .first d.storedSession ∨
        verifyToken jwt (now / 1000) d.tokenRef = .error ⟨401, "invalid token"⟩ ∧
          d.reload now = .initial) := by
  obtain ⟨session, hsession⟩ := ((dashboardOk_first session).goes h).session
  have htokenRef := hsession.tokenRef
  have hname := hsession.authenticatedUsername
  rw [← hsession.storedSession] at htokenRef hname
  refine ⟨fun hnone => ?_, fun u time hstored htime => ?_⟩
  · rw [hnone] at htokenRef
    refine ⟨htokenRef, ?_⟩
    rw [Dashboard.reload, hnone]
    rfl
  · have hread := readStoredSession_storedText hjwt u time now
    have hverify := Gateway.verifyToken_createToken (u := u) hjwt htime
    rw [hstored, Option.map_some, Option.getD_some] at htokenRef hname
    refine ⟨htokenRef, hname, ?_⟩
    rw [htokenRef, hstored, Dashboard.reload, hstored, Option.map_some, hread, hverify]
    by_cases hday : now < 1000 * (time + 24 * 60 * 60)
    · have hseconds : now / 1000 < time + 24 * 60 * 60 := Nat.div_lt_of_lt_mul hday
      rw [if_pos hday, if_pos hseconds]
      exact ⟨rfl, .inl ⟨rfl, rfl⟩⟩
    · have hseconds : ¬ now / 1000 < time + 24 * 60 * 60 := by omega
      rw [if_neg hday, if_neg hseconds]
      exact ⟨rfl, .inr ⟨rfl, rfl⟩⟩

/-- The page of `alice`, an hour after she has signed in. -/
theorem reload_keeps_session_alice : ∃ d,
    (Dashboard.first none).goes [.event (.startSession
      (createToken Gateway.sampleJwt 1700000000 (py "alice")) (py "alice"))] = some d ∧
    d.authenticatedUsername = py "alice" ∧ d.reload 1700003600000 = .first d.storedSession := by
  let u : Username := ⟨py "alice", by decide⟩
  obtain ⟨d, hd, hstored⟩ : ∃ d, (Dashboard.first none).goes
      [.event (.startSession (createToken Gateway.sampleJwt 1700000000 u.name) u.name)] = some d ∧
      d.storedSession = some (createToken Gateway.sampleJwt 1700000000 u.name, u.name) :=
    ⟨_, rfl, rfl⟩
  have htime : 1700000000 ≤ 1700003600000 / 1000 := by decide
  obtain ⟨htokenRef, hname, -, hkept⟩ := (reload_keeps_session Gateway.sampleJwt_lawful hd
    1700003600000).2 u 1700000000 hstored htime
  have hnow : 1700003600000 / 1000 < 1700000000 + 24 * 60 * 60 := by decide
  have hok := (Gateway.verifyToken_createToken (u := u) Gateway.sampleJwt_lawful htime).trans
    (if_pos hnow)
  rcases hkept with ⟨-, hkept⟩ | ⟨hverify, -⟩
  · exact ⟨d, hd, hname, hkept⟩
  · rw [htokenRef, hok] at hverify
    cases hverify

end Frontend
end ChannelWire
