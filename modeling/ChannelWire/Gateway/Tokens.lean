import ChannelWire.Foundation.Base64Url
import ChannelWire.Foundation.StrictJson
import ChannelWire.Gateway.Accounts
import ChannelWire.Gateway.Command
import ChannelWire.Gateway.Pages

/-!
# Access tokens

`create_token`, `verify_token` and `verify_request_token` of `gateway/app/main.py`, and the requests
that are served under the name they find.  PyJWT is an argument; of it only matters that a token has
three parts with the payload in the middle and is read as it was made until it expires
(`Jwt.Lawful`), and that nobody else makes one, which is a condition on the requests (`Unforged`).

A request is served as a user only with a token that the user got within the last day for a
password or, where they are enabled, as a dev token; and the direct messages that it is shown are
the user's own.  A socket is opened as a user only with such a token, which nobody looks at again
later (`access_is_authenticated`).
-/

namespace ChannelWire
namespace Gateway

open JsonText (ch isDigit quoted numeral IsPlain)
open Utf8

/-! ## Tokens -/

/-- What `create_token` signs. -/
structure Claims where
  sub : PyStr
  iat : ℕ
  exp : ℕ
  deriving DecidableEq

/-- The claims as a `dict`. -/
def Claims.payload (c : Claims) : Dict :=
  [(py "sub", .string c.sub), (py "iat", .number (numeral c.iat)),
    (py "exp", .number (numeral c.exp))]

/-- The claims as PyJWT writes them, with a subject of ASCII letters, digits and signs. -/
def payloadText (c : Claims) : PyStr :=
  ch '\x7b' :: (quoted (py "sub") ++ ch ':' :: (quoted c.sub ++ ch ',' ::
    (quoted (py "iat") ++ ch ':' :: (numeral c.iat ++ ch ',' ::
      (quoted (py "exp") ++ ch ':' :: (numeral c.exp ++ [ch '\x7d']))))))

/-- The bytes of an ASCII text. -/
def asciiBytes (s : PyStr) : Bytes := s.map fun c => UInt8.ofNat c.val

/-- A part of a token. -/
def base64Url (bytes : Bytes) : PyStr := (Base64.encodeUrl bytes).map ofByte

/-- `jwt.encode` and `jwt.decode`, with the secret and the algorithm.  `decode` is given the time in
seconds, and `none` stands for a `PyJWTError`. -/
structure Jwt where
  encode : Claims → PyStr
  decode : ℕ → PyStr → Option Dict

/-- What PyJWT documents: a token for a user is read as it was made, from `iat` on until `exp`, and
it consists of a header, the payload and a signature. -/
structure Jwt.Lawful (jwt : Jwt) : Prop where
  decode : ∀ c now, tokenUsername c.sub = true → c.iat ≤ now →
    jwt.decode now (jwt.encode c) = if now < c.exp then some c.payload else none
  encode : ∀ c, tokenUsername c.sub = true → ∃ header signature,
    jwt.encode c = base64Url header ++ ch '.' ::
      (base64Url (asciiBytes (payloadText c)) ++ ch '.' :: base64Url signature)

/-- An `HTTPException`. -/
structure HttpException where
  statusCode : ℕ
  detail : String
  deriving DecidableEq

/-- `create_token`. -/
def createToken (jwt : Jwt) (now : ℕ) (username : PyStr) : PyStr :=
  jwt.encode ⟨username, now, now + 24 * 60 * 60⟩

/-- `verify_token`. -/
def verifyToken (jwt : Jwt) (now : ℕ) (token : PyStr) : Except HttpException PyStr :=
  match jwt.decode now token with
  | none => .error ⟨401, "invalid token"⟩
  | some payload =>
    match payload.getStr "sub" with
    | none | some [] => .error ⟨401, "invalid token subject"⟩
    | some username => .ok username

/-- The token of a request: that of its header, if it is a bearer, else the one in its query. -/
def requestToken (token authorization : Option PyStr) : Option PyStr :=
  match authorization with
  | none => token
  | some authorization =>
    if (py "bearer ").isPrefixOf (lower authorization) then some (strip (authorization.drop 7))
    else token

/-- `verify_request_token`. -/
def verifyRequestToken (jwt : Jwt) (now : ℕ) (token authorization : Option PyStr) :
    Except HttpException PyStr :=
  match requestToken token authorization with
  | none | some [] => .error ⟨401, "missing token"⟩
  | some token => verifyToken jwt now token

/-! ## The format -/

section Format

variable {jwt : Jwt} {c : Claims} {u : Username} {s : PyStr} {bytes : Bytes}

theorem of_mem_base64Url {x : CodePoint} (h : x ∈ base64Url bytes) :
    IsPlain x ∧ x ≠ ch '.' ∧ 0x20 < x.val ∧ x.val < 0x80 := by
  obtain ⟨b, hb, rfl⟩ := List.mem_map.mp h
  obtain ⟨hascii, hdot, hquote, hslash, hcontrol⟩ := Base64.of_mem_encodeUrl hb
  have hne : ∀ d : UInt8, b ≠ d → ofByte b ≠ ofByte d := by
    intro d hd heq
    have hval := congrArg Fin.val heq
    rw [val_ofByte, val_ofByte] at hval
    exact hd (UInt8.toNat_inj.mp hval)
  refine ⟨⟨hne 0x22 hquote, hne 0x5C hslash, ?_⟩, hne 0x2E hdot, ?_⟩
  · rw [val_ofByte]
    omega
  · rw [val_ofByte]
    exact ⟨hcontrol, hascii⟩

theorem isPlain_name {x : CodePoint} (h : x ∈ u.name) : IsPlain x ∧ x.val < 0x80 := by
  have hchar := u.spec.2.2 x h
  have hascii := isNameChar_lt hchar
  refine ⟨⟨?_, ?_, ?_⟩, hascii⟩
  · rintro rfl
    exact absurd hchar (by decide)
  · rintro rfl
    exact absurd hchar (by decide)
  · simp only [isNameChar, Bool.or_eq_true, Bool.and_eq_true, decide_eq_true_eq,
      beq_iff_eq] at hchar
    omega

theorem isPlain_key (key : String)
    (h : ((py key).all fun c => decide (IsPlain c ∧ c.val < 0x80)) = true) :
    (∀ c ∈ py key, IsPlain c) ∧ ∀ c ∈ py key, c.val < 0x80 :=
  ⟨fun c hc => (of_decide_eq_true (List.all_eq_true.mp h c hc)).1,
    fun c hc => (of_decide_eq_true (List.all_eq_true.mp h c hc)).2⟩

/-- The payload is an object with the three claims. -/
theorem loads_payloadText (h : tokenUsername c.sub = true) :
    JsonText.loads (payloadText c) = some (.object c.payload) := by
  have hsub : ∀ x ∈ c.sub, IsPlain x := fun x hx => (isPlain_name (u := ⟨c.sub, h⟩) hx).1
  have hkeys : py "sub" ≠ py "iat" ∧ py "sub" ≠ py "exp" ∧ py "iat" ≠ py "exp" := by decide
  obtain ⟨hk1, -⟩ := isPlain_key "sub" (by decide)
  obtain ⟨hk2, -⟩ := isPlain_key "iat" (by decide)
  obtain ⟨hk3, -⟩ := isPlain_key "exp" (by decide)
  refine JsonText.loads_members (n := 4) (fun m hm => ?_) ?_
  · obtain ⟨m, rfl⟩ := Nat.exists_eq_add_of_le' hm
    rw [JsonText.members_string hk1 hsub [] (m + 2) (.inl rfl), if_neg (by decide),
      JsonText.skipBlanks_quoted, JsonText.members_step hk2 _ c.iat (m + 1) (.inl rfl),
      if_neg (by decide), JsonText.skipBlanks_quoted,
      JsonText.members_step hk3 _ c.exp m (.inr rfl), if_pos rfl]
    simp only [JsonText.setItem, if_neg hkeys.1, if_neg hkeys.2.1, if_neg hkeys.2.2]
    rfl
  · rw [JsonText.quoted_append]
    simp only [List.length_cons, List.length_append]
    omega

/-- The bytes of a payload are its text. -/
theorem map_asciiBytes (h : ∀ x ∈ s, x.val < 0x80) : (asciiBytes s).map ofByte = s := by
  rw [asciiBytes, List.map_map]
  refine (List.map_congr_left fun x hx => ?_).trans (List.map_id _)
  refine Fin.ext ?_
  show (ofByte (UInt8.ofNat x.val)).val = x.val
  have hlt := h x hx
  rw [val_ofByte, toNat_ofNat_of_lt (by omega)]

theorem payloadText_lt (h : tokenUsername c.sub = true) : ∀ x ∈ payloadText c, x.val < 0x80 := by
  have hsub : ∀ x ∈ c.sub, x.val < 0x80 := fun x hx => (isPlain_name (u := ⟨c.sub, h⟩) hx).2
  have hdigit : ∀ n, ∀ x ∈ numeral n, x.val < 0x80 := by
    intro n x hx
    have hx := JsonText.isDigit_of_mem_numeral hx
    simp only [isDigit, decide_eq_true_eq] at hx
    omega
  have hquoted : ∀ t : PyStr, (∀ x ∈ t, x.val < 0x80) → ∀ x ∈ quoted t, x.val < 0x80 := by
    intro t ht
    rw [quoted, List.cons_append, List.forall_mem_cons, List.forall_mem_append,
      List.forall_mem_singleton]
    exact ⟨by decide, ht, by decide⟩
  obtain ⟨-, hk1⟩ := isPlain_key "sub" (by decide)
  obtain ⟨-, hk2⟩ := isPlain_key "iat" (by decide)
  obtain ⟨-, hk3⟩ := isPlain_key "exp" (by decide)
  simp only [payloadText, List.forall_mem_cons, List.forall_mem_append]
  exact ⟨by decide, hquoted _ hk1, by decide, hquoted _ hsub, by decide, hquoted _ hk2, by decide,
    hdigit _, by decide, hquoted _ hk3, by decide, hdigit _, by decide,
    fun _ h => absurd h List.not_mem_nil⟩

/-- A token is a plain text. -/
theorem Jwt.Lawful.plain (hjwt : jwt.Lawful) (h : tokenUsername c.sub = true) {x : CodePoint}
    (hx : x ∈ jwt.encode c) : IsPlain x ∧ 0x20 < x.val ∧ x.val < 0x80 := by
  obtain ⟨header, signature, hencode⟩ := hjwt.encode c h
  have hdot : IsPlain (ch '.') ∧ 0x20 < (ch '.').val ∧ (ch '.').val < 0x80 := by decide
  have hpart : ∀ b, ∀ x ∈ base64Url b, IsPlain x ∧ 0x20 < x.val ∧ x.val < 0x80 := fun b x hx =>
    ⟨(of_mem_base64Url hx).1, (of_mem_base64Url hx).2.2⟩
  have hall : ∀ x ∈ jwt.encode c, IsPlain x ∧ 0x20 < x.val ∧ x.val < 0x80 := by
    rw [hencode]
    simp only [List.forall_mem_cons, List.forall_mem_append]
    exact ⟨hpart header, hdot, hpart _, hdot, hpart signature⟩
  exact hall x hx

theorem Jwt.Lawful.ne_nil (hjwt : jwt.Lawful) (h : tokenUsername c.sub = true) :
    jwt.encode c ≠ [] := by
  obtain ⟨header, signature, hencode⟩ := hjwt.encode c h
  rw [hencode]
  exact List.append_ne_nil_of_right_ne_nil _ (List.cons_ne_nil _ _)

end Format

section Verification

variable {jwt : Jwt} {now time : ℕ} {u : Username} {username t : PyStr}
  {token authorization : Option PyStr}

theorem Claims.getStr_sub (c : Claims) : c.payload.getStr "sub" = some c.sub := rfl

/-- **A token is good for a day.** -/
theorem verifyToken_createToken (hjwt : jwt.Lawful) (htime : time ≤ now) :
    verifyToken jwt now (createToken jwt time u.name) =
      if now < time + 24 * 60 * 60 then .ok u.name else .error ⟨401, "invalid token"⟩ := by
  unfold verifyToken createToken
  rw [hjwt.decode _ _ u.valid htime]
  by_cases hday : now < time + 24 * 60 * 60
  · rw [if_pos hday, if_pos hday]
    simp only [Claims.getStr_sub]
    cases hname : u.name with
    | nil =>
      have hlen := u.spec.1
      rw [hname] at hlen
      cases hlen
    | cons _ _ => rfl
  · rw [if_neg hday, if_neg hday]

/-- The name that is found is the subject of the token. -/
theorem exists_of_verifyToken (h : verifyToken jwt now t = .ok username) :
    ∃ payload, jwt.decode now t = some payload ∧ payload.getStr "sub" = some username := by
  unfold verifyToken at h
  split at h
  · cases h
  · next payload hdecode =>
    split at h
    · cases h
    · cases h
    · next hsub =>
      obtain rfl := Except.ok.inj h
      exact ⟨payload, hdecode, hsub⟩

/-- A request that is served has shown a token. -/
theorem exists_of_verifyRequestToken
    (h : verifyRequestToken jwt now token authorization = .ok username) :
    ∃ t ∈ requestToken token authorization, verifyToken jwt now t = .ok username := by
  unfold verifyRequestToken at h
  split at h
  · cases h
  · cases h
  · next t _ ht => exact ⟨t, ht, h⟩

end Verification

/-! ## Every run of the requests -/

/-- How a user got a token. -/
inductive Credential where
  | registered (password : PyStr)
  | loggedIn (password : PyStr)
  | devToken
  deriving DecidableEq

/-- A token that was given out. -/
structure Grant where
  user : Username
  time : ℕ
  credential : Credential
  deriving DecidableEq

/-- The token. -/
def Grant.token (jwt : Jwt) (g : Grant) : PyStr := createToken jwt g.time g.user.name

/-- A request with a token; the others read nothing of the table `messages` but how many rows it
has. -/
inductive Request where
  | history (channelName : PyStr) (limit : ℕ)
  | dmHistory (otherUsername : PyStr) (limit : ℕ)
  | other

/-- The messages it is answered with; `none` stands for the 422. -/
def Request.answer (table : MessageTable) (username : PyStr) :
    Request → Option (List MessageTable.Entry)
  | .history channelName limit => table.history channelName limit
  | .dmHistory otherUsername limit => table.dmHistory username otherUsername limit
  | .other => some []

/-- A request that was served, from the table it was answered from. -/
structure Served where
  username : PyStr
  time : ℕ
  table : MessageTable
  messages : List MessageTable.Entry

/-- A socket whose token was accepted; `websocket_endpoint` looks at it only once. -/
structure Opened where
  username : PyStr
  time : ℕ

/-- The accounts, the clock, the tokens that were given out, the requests that were served and the
sockets that were opened. -/
structure Access where
  accounts : Accounts
  now : ℕ
  grants : List Grant
  served : List Served
  opened : List Opened

/-- The token, if it is read at all, was given out: nobody else makes one. -/
def Unforged (jwt : Jwt) (s : Access) (token : PyStr) : Prop :=
  (jwt.decode s.now token).isSome = true → ∃ g ∈ s.grants, token = g.token jwt

/-- The requests; `devTokens` is `ENABLE_DEV_TOKEN`. -/
inductive AccessStep (jwt : Jwt) (pbkdf2Hmac : Pbkdf2Hmac) (devTokens : Bool) :
    Access → Access → Prop where
  | tick {s : Access} {now : ℕ} : s.now ≤ now →
      AccessStep jwt pbkdf2Hmac devTokens s { s with now := now }
  | store {s : Access} {op : DbOp} {db : Database} : op.IsStore → op.run s.accounts.db = some db →
      AccessStep jwt pbkdf2Hmac devTokens s { s with accounts := { s.accounts with db := db } }
  | register {s : Access} {u : Username} {password : PyStr} {random : Bytes} {db : Database} :
      registerUser pbkdf2Hmac s.accounts.db u password random = some db →
      AccessStep jwt pbkdf2Hmac devTokens s
        { s with
          accounts := ⟨db, s.accounts.registered ++ [(u, password)]⟩
          grants := s.grants ++ [⟨u, s.now, .registered password⟩] }
  | login {s : Access} {u : Username} {password : PyStr} :
      login pbkdf2Hmac s.accounts.db u password = some u →
      AccessStep jwt pbkdf2Hmac devTokens s
        { s with grants := s.grants ++ [⟨u, s.now, .loggedIn password⟩] }
  | devToken {s : Access} {u : Username} {db : Database} : devTokens = true →
      devToken s.accounts.db u.name = some db →
      AccessStep jwt pbkdf2Hmac devTokens s
        { s with
          accounts := { s.accounts with db := db }
          grants := s.grants ++ [⟨u, s.now, .devToken⟩] }
  | request {s : Access} {token authorization : Option PyStr} {username : PyStr}
      {table : MessageTable} {request : Request} {messages : List MessageTable.Entry} :
      (∀ t ∈ requestToken token authorization, Unforged jwt s t) →
      verifyRequestToken jwt s.now token authorization = .ok username →
      table.messages = s.accounts.db.messages → request.answer table username = some messages →
      AccessStep jwt pbkdf2Hmac devTokens s
        { s with served := s.served ++ [⟨username, s.now, table, messages⟩] }
  | socket {s : Access} {token username : PyStr} :
      Unforged jwt s token → verifyToken jwt s.now token = .ok username →
      AccessStep jwt pbkdf2Hmac devTokens s
        { s with opened := s.opened ++ [⟨username, s.now⟩] }

/-- The token was given out for a password that the user has registered, or one of which PBKDF2
makes the same key, or as a dev token. -/
def Grant.Earned (pbkdf2Hmac : Pbkdf2Hmac) (devTokens : Bool)
    (registered : List (Username × PyStr)) (g : Grant) : Prop :=
  match g.credential with
  | .registered password => (g.user, password) ∈ registered
  | .loggedIn password =>
    ∃ password', (g.user, password') ∈ registered ∧ SameKey pbkdf2Hmac password password'
  | .devToken => devTokens = true

/-- The user held a token of that day. -/
def HeldToken (grants : List Grant) (username : PyStr) (time : ℕ) : Prop :=
  ∃ g ∈ grants, g.user.name = username ∧ g.time ≤ time ∧ time < g.time + 24 * 60 * 60

/-- A row that is a direct message has the user at one of its ends. -/
def MayRead (username : PyStr) (row : MessageRow) : Prop :=
  row.kind = .dm → row.sender = username ∨ row.recipient = some username

/-- The request was served with a token of that day, and of the direct messages it shows only those
of its user. -/
def Served.Authentic (grants : List Grant) (r : Served) : Prop :=
  HeldToken grants r.username r.time ∧
    ∀ m ∈ r.messages, ∃ row ∈ r.table.rows, m.Of row ∧ MayRead r.username row

/-- **Tokens are earned, and requests are authentic.** -/
structure AccessOk (pbkdf2Hmac : Pbkdf2Hmac) (devTokens : Bool) (s : Access) : Prop where
  reachable : Transition.Reachable (accounts pbkdf2Hmac) s.accounts
  grants : ∀ g ∈ s.grants, g.time ≤ s.now ∧ g.Earned pbkdf2Hmac devTokens s.accounts.registered
  served : ∀ r ∈ s.served, r.Authentic s.grants
  opened : ∀ o ∈ s.opened, HeldToken s.grants o.username o.time

variable {jwt : Jwt} {pbkdf2Hmac : Pbkdf2Hmac} {devTokens : Bool} {s t : Access}

theorem Grant.Earned.mono {g : Grant} {l l' : List (Username × PyStr)}
    (h : g.Earned pbkdf2Hmac devTokens l) (hl : l ⊆ l') :
    g.Earned pbkdf2Hmac devTokens l' := by
  unfold Earned at h ⊢
  cases hc : g.credential with
  | registered password =>
    rw [hc] at h
    exact hl h
  | loggedIn password =>
    rw [hc] at h
    obtain ⟨password', hmem, hkey⟩ := h
    exact ⟨password', hl hmem, hkey⟩
  | devToken =>
    rw [hc] at h
    exact h

theorem HeldToken.mono {username : PyStr} {time : ℕ} {l l' : List Grant}
    (h : HeldToken l username time) (hl : l ⊆ l') : HeldToken l' username time := by
  obtain ⟨g, hg, hday⟩ := h
  exact ⟨g, hl hg, hday⟩

/-- One more token. -/
theorem AccessOk.grant (hs : AccessOk pbkdf2Hmac devTokens s) {a : Accounts} {g : Grant}
    (ha : Transition.Reachable (accounts pbkdf2Hmac) a)
    (hregistered : s.accounts.registered ⊆ a.registered) (htime : g.time = s.now)
    (hearned : g.Earned pbkdf2Hmac devTokens a.registered) :
    AccessOk pbkdf2Hmac devTokens { s with accounts := a, grants := s.grants ++ [g] } := by
  have hmore : s.grants ⊆ s.grants ++ [g] := List.subset_append_left ..
  refine ⟨ha, fun g' hg' => ?_, fun r hr => ⟨(hs.served r hr).1.mono hmore, (hs.served r hr).2⟩,
    fun o ho => (hs.opened o ho).mono hmore⟩
  rcases List.mem_append.mp hg' with hg' | hg'
  · exact ⟨(hs.grants g' hg').1, (hs.grants g' hg').2.mono hregistered⟩
  · obtain rfl := List.mem_singleton.mp hg'
    exact ⟨htime.le, hearned⟩

/-- The user of a token is the one it was given to. -/
theorem heldToken_of_verifyToken (hjwt : jwt.Lawful) {token username : PyStr}
    (hs : AccessOk pbkdf2Hmac devTokens s) (hunforged : Unforged jwt s token)
    (h : verifyToken jwt s.now token = .ok username) : HeldToken s.grants username s.now := by
  obtain ⟨payload, hdecode, hsub⟩ := exists_of_verifyToken h
  obtain ⟨g, hg, rfl⟩ := hunforged (by rw [hdecode]; rfl)
  have htime := (hs.grants g hg).1
  rw [Grant.token, createToken, hjwt.decode _ _ g.user.valid htime] at hdecode
  split_ifs at hdecode with hday
  obtain rfl := Option.some.inj hdecode
  exact ⟨g, hg, Option.some.inj hsub, htime, hday⟩

/-- One more request. -/
theorem AccessOk.serve (hjwt : jwt.Lawful) {token username : PyStr}
    {table : MessageTable} {messages : List MessageTable.Entry}
    (hs : AccessOk pbkdf2Hmac devTokens s)
    (hunforged : Unforged jwt s token) (h : verifyToken jwt s.now token = .ok username)
    (hmessages : ∀ m ∈ messages, ∃ row ∈ table.rows, m.Of row ∧ MayRead username row) :
    AccessOk pbkdf2Hmac devTokens
      { s with served := s.served ++ [⟨username, s.now, table, messages⟩] } := by
  have hheld := heldToken_of_verifyToken hjwt hs hunforged h
  refine ⟨hs.reachable, hs.grants, fun r hr => ?_, hs.opened⟩
  rcases List.mem_append.mp hr with hr | hr
  · exact hs.served r hr
  · obtain rfl := List.mem_singleton.mp hr
    exact ⟨hheld, hmessages⟩

/-- One more socket. -/
theorem AccessOk.openSocket (hjwt : jwt.Lawful) {token username : PyStr}
    (hs : AccessOk pbkdf2Hmac devTokens s) (hunforged : Unforged jwt s token)
    (h : verifyToken jwt s.now token = .ok username) :
    AccessOk pbkdf2Hmac devTokens { s with opened := s.opened ++ [⟨username, s.now⟩] } := by
  have hheld := heldToken_of_verifyToken hjwt hs hunforged h
  refine ⟨hs.reachable, hs.grants, hs.served, fun o ho => ?_⟩
  rcases List.mem_append.mp ho with ho | ho
  · exact hs.opened o ho
  · obtain rfl := List.mem_singleton.mp ho
    exact hheld

/-- A page shows direct messages of the user that asks only. -/
theorem Request.mem_answer {request : Request} {table : MessageTable} {username : PyStr}
    {messages : List MessageTable.Entry} (h : request.answer table username = some messages)
    {m : MessageTable.Entry} (hm : m ∈ messages) :
    ∃ row ∈ table.rows, m.Of row ∧ MayRead username row := by
  cases request with
  | history channelName limit =>
    obtain ⟨row, hrow, hof, hchannel, -⟩ := MessageTable.mem_history h hm
    exact ⟨row, hrow, hof, fun hdm => by rw [hchannel] at hdm; cases hdm⟩
  | dmHistory otherUsername limit =>
    obtain ⟨row, hrow, hof, -, hends⟩ := MessageTable.mem_dmHistory h hm
    exact ⟨row, hrow, hof, fun _ => hends.imp And.left And.right⟩
  | other =>
    obtain rfl := Option.some.inj h
    cases hm

/-- A login shows a password with the key of one that the user has registered. -/
theorem exists_registered_of_login {a : Accounts}
    (ha : Transition.Reachable (accounts pbkdf2Hmac) a) {u : Username} {password : PyStr}
    (h : login pbkdf2Hmac a.db u password = some u) :
    ∃ password', (u, password') ∈ a.registered ∧ SameKey pbkdf2Hmac password password' := by
  unfold login at h
  split at h
  · cases h
  · next user huser =>
    split_ifs at h with hverify
    obtain ⟨hmem, hname⟩ := mem_of_getUser huser
    cases hhash : user.passwordHash with
    | none =>
      rw [hhash] at hverify
      cases hverify
    | some hash =>
      obtain ⟨u', password', random, hreg, hname', hhashed⟩ :=
        (accountsOk ha).hashed user hmem hash hhash
      rw [hhash] at hverify
      obtain ⟨name, _⟩ := u
      obtain ⟨name', _⟩ := u'
      obtain rfl : name' = name := hname'.trans hname
      exact ⟨password', hreg, sameKey_of_verifyPassword hhashed hverify⟩

theorem AccessOk.step (hjwt : jwt.Lawful) (hs : AccessOk pbkdf2Hmac devTokens s)
    (h : AccessStep jwt pbkdf2Hmac devTokens s t) : AccessOk pbkdf2Hmac devTokens t := by
  have hself := List.Subset.refl s.accounts.registered
  cases h with
  | tick hnow =>
    exact ⟨hs.reachable, fun g hg => ⟨(hs.grants g hg).1.trans hnow, (hs.grants g hg).2⟩,
      hs.served, hs.opened⟩
  | store hstore hrun =>
    exact ⟨.step hs.reachable (AccountStep.store hstore hrun), hs.grants, hs.served, hs.opened⟩
  | register hdb =>
    exact hs.grant (.step hs.reachable (AccountStep.register hdb)) (List.subset_append_left ..) rfl
      List.mem_concat_self
  | login hlogin =>
    exact hs.grant hs.reachable hself rfl (exists_registered_of_login hs.reachable hlogin)
  | devToken hdev hdb =>
    exact hs.grant (.step hs.reachable (AccountStep.devToken hdb)) hself rfl hdev
  | request hunforged hverify htable hanswer =>
    obtain ⟨t, ht, hverify⟩ := exists_of_verifyRequestToken hverify
    exact hs.serve hjwt (hunforged t ht) hverify fun m => Request.mem_answer hanswer
  | socket hunforged hverify => exact hs.openSocket hjwt hunforged hverify

def sampleClaims : Claims := ⟨py "alice", 1700000000, 1700086400⟩

def sampleHeader : PyStr := py "\x7b\"alg\":\"HS256\",\"typ\":\"JWT\"\x7d"

def sampleSignature (c : Claims) : Bytes :=
  if c = sampleClaims then
    [91, 231, 153, 87, 232, 80, 249, 182, 249, 20, 231, 118, 17, 205, 46, 251, 207, 44, 72, 193,
      161, 12, 2, 103, 71, 170, 79, 36, 1, 41, 198, 158]
  else []

def sampleJwt : Jwt where
  encode c := base64Url (asciiBytes sampleHeader) ++ ch '.' ::
    (base64Url (asciiBytes (payloadText c)) ++ ch '.' :: base64Url (sampleSignature c))
  decode now token :=
    match split (ch '.') 2 token with
    | [_, payload, _] => do
      let symbols := (asciiBytes payload).map Base64.ofUrl
      let bytes ← Base64.decode (Base64.padded symbols)
      match JsonText.loads (bytes.map ofByte) with
      | some (.object fields) =>
        match fields.lookup (py "exp") with
        | some (.number exp) => if now < JsonText.digitsValue exp then some fields else none
        | _ => none
      | _ => none
    | _ => none

/-- The bytes of the symbols for URLs are read again. -/
theorem asciiBytes_base64Url (bytes : Bytes) :
    asciiBytes (base64Url bytes) = Base64.encodeUrl bytes := by
  rw [asciiBytes, base64Url, List.map_map]
  refine (List.map_congr_left fun b _ => ?_).trans (List.map_id _)
  show UInt8.ofNat (ofByte b).val = b
  rw [val_ofByte, UInt8.ofNat_toNat]

theorem sampleJwt_lawful : sampleJwt.Lawful where
  decode c now hname _ := by
    have hdot : ∀ bytes, ch '.' ∉ base64Url bytes := fun bytes h => (of_mem_base64Url h).2.1 rfl
    have hsplit : split (ch '.') 2 (sampleJwt.encode c) = [base64Url (asciiBytes sampleHeader),
        base64Url (asciiBytes (payloadText c)), base64Url (sampleSignature c)] := by
      show split (ch '.') 2 (_ ++ ch '.' :: (_ ++ ch '.' :: _)) = _
      rw [split_field (hdot _), split_field (hdot _)]
      rfl
    have hexp : c.payload.lookup (py "exp") = some (.number (numeral c.exp)) := rfl
    simp only [sampleJwt] at hsplit ⊢
    rw [hsplit]
    simp only [asciiBytes_base64Url, Base64.padded_encodeUrl, Base64.decode_encode,
      Option.bind_eq_bind, Option.bind_some, map_asciiBytes (payloadText_lt hname),
      loads_payloadText hname, hexp, JsonText.digitsValue_numeral]
  encode _ _ := ⟨_, _, rfl⟩

end Gateway
end ChannelWire
