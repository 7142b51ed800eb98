import ChannelWire.Foundation.Base64
import ChannelWire.Gateway.Operations

/-!
# Accounts

`hash_password`, `verify_password` and the three endpoints of `gateway/app/main.py` that give out
tokens.  The key derivation of `hashlib` is an argument; of it only matters that different passwords
have different keys under one salt.

A stored hash spells four fields with `$` between them, and none of the first three has a `$` in it,
so `verify_password` finds the fields again (`verifyPassword_hashPassword`).  No operation changes a
user that exists, so the hash of a user is the one of the registration (`AccountsOk`).
-/

namespace ChannelWire
namespace Gateway

open Utf8 Transaction

/-- `hashlib.pbkdf2_hmac("sha256", password, salt, iterations)`. -/
abbrev Pbkdf2Hmac := Bytes → Bytes → ℕ → Bytes

/-- `base64.b64encode(...).decode("ascii")`. -/
def b64encode (bytes : Bytes) : PyStr := (Base64.encode bytes).map ofByte

/-- `base64.b64decode`, of a `str`. -/
def b64decode (s : PyStr) : Option Bytes :=
  if s.all fun c => c.val < 0x80 then Base64.decode (s.map fun c => UInt8.ofNat c.val) else none

/-- `str.split(sep, maxsplit)`. -/
def split (sep : CodePoint) : ℕ → PyStr → List PyStr
  | 0, s => [s]
  | n + 1, s =>
    match s.span (· ≠ sep) with
    | (first, []) => [first]
    | (first, _ :: rest) => first :: split sep n rest

/-- The digits of a number, with single underscores between them. -/
def digitsLoop : PyStr → Bool → ℕ → Option ℕ
  | [], digit, n => if digit then some n else none
  | c :: rest, digit, n =>
    if 0x30 ≤ c.val ∧ c.val ≤ 0x39 then digitsLoop rest true (n * 10 + (c.val - 0x30))
    else if c.val = 0x5F ∧ digit = true then digitsLoop rest false n
    else none

/-- `int`, of a `str` with ASCII digits; a negative number is no number of iterations either, and
has no result here. -/
def pyInt (s : PyStr) : Option ℕ :=
  match strip s with
  | [] => none
  | c :: rest => if c.val = 0x2B then digitsLoop rest false 0 else digitsLoop (c :: rest) false 0

/-- `hash_password`; `random` is what `secrets.token_bytes(16)` returns, and `none` stands for the
`UnicodeEncodeError`. -/
def hashPassword (pbkdf2Hmac : Pbkdf2Hmac) (password : PyStr) (salt : Option Bytes)
    (random : Bytes) : Option PyStr :=
  let salt := match salt with
    | none | some [] => random
    | some salt => salt
  (encode password).map fun bytes => py "pbkdf2_sha256$210000$" ++ b64encode salt ++ py "$" ++
    b64encode (pbkdf2Hmac bytes salt 210000)

/-- `verify_password`. -/
def verifyPassword (pbkdf2Hmac : Pbkdf2Hmac) (password : PyStr) (encoded : Option PyStr) : Bool :=
  match encoded with
  | none | some [] => false
  | some encoded =>
    match split 0x24 3 encoded with
    | [algorithm, iterations, saltB64, digestB64] =>
      if algorithm ≠ py "pbkdf2_sha256" then false
      else
        match b64decode saltB64, b64decode digestB64, encode password, pyInt iterations with
        | some salt, some expected, some bytes, some n =>
          decide (0 < n ∧ pbkdf2Hmac bytes salt n = expected)
        | _, _, _, _ => false
    | _ => false

/-- `get_user`. -/
def getUser (db : Database) (username : PyStr) : Option User :=
  db.users.find? fun user => user.username = username

/-- `POST /auth/login`: the subject of the token, or `none` for the 401. -/
def login (pbkdf2Hmac : Pbkdf2Hmac) (db : Database) (u : Username) (password : PyStr) :
    Option Username :=
  match getUser db u.name with
  | none => none
  | some user => if verifyPassword pbkdf2Hmac password user.passwordHash then some u else none

/-- `POST /auth/register`; `none` stands for the 409. -/
def registerUser (pbkdf2Hmac : Pbkdf2Hmac) (db : Database) (u : Username) (password : PyStr)
    (random : Bytes) : Option Database :=
  (hashPassword pbkdf2Hmac password none random).bind fun hash => register db u.name hash

/-! ## The stored hash -/

variable {sep : CodePoint} {pbkdf2Hmac : Pbkdf2Hmac}

/-- A field without the separator is split off. -/
theorem split_field {field : PyStr} (h : sep ∉ field) (n : ℕ) (rest : PyStr) :
    split sep (n + 1) (field ++ sep :: rest) = field :: split sep n rest := by
  have hspan : (field ++ sep :: rest).span (· ≠ sep) = (field, sep :: rest) := by
    rw [List.span_eq_takeWhile_dropWhile]
    have hall : ∀ c ∈ field, decide (c ≠ sep) = true := fun c hc =>
      decide_eq_true fun heq => h (heq ▸ hc)
    rw [List.takeWhile_append_of_pos hall, List.dropWhile_append_of_pos hall]
    simp
  rw [split, hspan]

theorem b64decode_b64encode (bytes : Bytes) : b64decode (b64encode bytes) = some bytes := by
  have hascii : (b64encode bytes).all (fun c => c.val < 0x80) = true := by
    refine List.all_eq_true.mpr fun c hc => decide_eq_true ?_
    obtain ⟨b, hb, rfl⟩ := List.mem_map.mp hc
    rw [val_ofByte]
    exact (Base64.isSymbol_of_mem_encode hb).lt
  have hsame : (b64encode bytes).map (fun c => UInt8.ofNat c.val) = Base64.encode bytes := by
    rw [b64encode, List.map_map]
    refine (List.map_congr_left fun b _ => ?_).trans (List.map_id _)
    show UInt8.ofNat (ofByte b).val = b
    rw [val_ofByte, UInt8.ofNat_toNat]
  rw [b64decode, if_pos hascii, hsame, Base64.decode_encode]

/-- The separator of the fields is no symbol of base64. -/
theorem dollar_notMem_b64encode (bytes : Bytes) : (0x24 : CodePoint) ∉ b64encode bytes := by
  intro h
  obtain ⟨c, hc, heq⟩ := List.mem_map.mp h
  have hsymbol := Base64.isSymbol_of_mem_encode hc
  obtain rfl : c = 0x24 := by
    refine UInt8.toNat_inj.mp ?_
    have hval := congrArg Fin.val heq
    rwa [val_ofByte] at hval
  exact absurd hsymbol (by decide)

/-- The fields of a hash are found again. -/
theorem split_hash (salt digest : PyStr) (hsalt : (0x24 : CodePoint) ∉ salt) :
    split 0x24 3 (py "pbkdf2_sha256$210000$" ++ salt ++ py "$" ++ digest) =
      [py "pbkdf2_sha256", py "210000", salt, digest] := by
  have hspell : py "pbkdf2_sha256$210000$" ++ salt ++ py "$" ++ digest =
      py "pbkdf2_sha256" ++ 0x24 :: (py "210000" ++ 0x24 :: (salt ++ 0x24 :: digest)) := by
    have hhead : py "pbkdf2_sha256$210000$" =
        py "pbkdf2_sha256" ++ 0x24 :: (py "210000" ++ [0x24]) := by decide +kernel
    have hdollar : py "$" = [0x24] := by decide
    rw [hhead, hdollar]
    simp only [List.append_assoc, List.cons_append, List.nil_append]
  rw [hspell, split_field (by decide +kernel), split_field (by decide +kernel), split_field hsalt]
  rfl

/-- A password is verified against a hash if it has the same key under the salt of the hash. -/
theorem verifyPassword_hash {password : PyStr} {bytes salt : Bytes} :
    verifyPassword pbkdf2Hmac password (some (py "pbkdf2_sha256$210000$" ++ b64encode salt ++
      py "$" ++ b64encode (pbkdf2Hmac bytes salt 210000))) = true ↔
    ∃ bytes', encode password = some bytes' ∧
      pbkdf2Hmac bytes' salt 210000 = pbkdf2Hmac bytes salt 210000 := by
  have hsplit := split_hash (b64encode salt) (b64encode (pbkdf2Hmac bytes salt 210000))
    (dollar_notMem_b64encode salt)
  have hint : pyInt (py "210000") = some 210000 := by decide +kernel
  have hne : py "pbkdf2_sha256$210000$" ++ b64encode salt ++ py "$" ++
      b64encode (pbkdf2Hmac bytes salt 210000) ≠ [] :=
    List.append_ne_nil_of_left_ne_nil (List.append_ne_nil_of_left_ne_nil
      (List.append_ne_nil_of_left_ne_nil (by decide +kernel) _) _) _
  unfold verifyPassword
  split
  · next heq => cases heq
  · next heq => exact absurd (Option.some.inj heq) hne
  · next encoded _ heq =>
    obtain rfl := Option.some.inj heq
    rw [hsplit]
    simp only [ne_eq, not_true_eq_false, if_false, b64decode_b64encode, hint]
    cases encode password with
    | none => simp
    | some bytes' => simp

/-- The hash of a password, with the salt it was made with. -/
theorem exists_of_hashPassword {password hash : PyStr} {salt : Option Bytes} {random : Bytes}
    (h : hashPassword pbkdf2Hmac password salt random = some hash) :
    ∃ bytes salt', encode password = some bytes ∧ hash = py "pbkdf2_sha256$210000$" ++
      b64encode salt' ++ py "$" ++ b64encode (pbkdf2Hmac bytes salt' 210000) := by
  obtain ⟨bytes, hbytes, rfl⟩ := Option.map_eq_some_iff.mp h
  exact ⟨bytes, _, hbytes, rfl⟩

/-- **A password is verified against its own hash, and no other is.** -/
theorem verifyPassword_hashPassword (hkdf : ∀ salt n, Function.Injective (pbkdf2Hmac · salt n))
    {password password' hash : PyStr} {salt : Option Bytes} {random : Bytes}
    (h : hashPassword pbkdf2Hmac password salt random = some hash) :
    verifyPassword pbkdf2Hmac password' (some hash) = true ↔ password' = password := by
  obtain ⟨bytes, salt', hbytes, rfl⟩ := exists_of_hashPassword h
  rw [verifyPassword_hash]
  constructor
  · rintro ⟨bytes', hbytes', hkey⟩
    obtain rfl := hkdf salt' 210000 hkey
    exact Option.some.inj
      ((encode_eq_some_iff.mp hbytes').symm.trans (encode_eq_some_iff.mp hbytes))
  · rintro rfl
    exact ⟨bytes, hbytes, rfl⟩

/-- PBKDF2 makes one key of both passwords, under some salt. -/
def SameKey (pbkdf2Hmac : Pbkdf2Hmac) (password password' : PyStr) : Prop :=
  ∃ salt bytes bytes', encode password = some bytes ∧ encode password' = some bytes' ∧
    pbkdf2Hmac bytes salt 210000 = pbkdf2Hmac bytes' salt 210000

/-- Whatever PBKDF2 may be, a password that is verified has the key of the one that was hashed. -/
theorem sameKey_of_verifyPassword {password password' hash : PyStr} {salt : Option Bytes}
    {random : Bytes} (h : hashPassword pbkdf2Hmac password salt random = some hash)
    (hverify : verifyPassword pbkdf2Hmac password' (some hash) = true) :
    SameKey pbkdf2Hmac password' password := by
  obtain ⟨bytes, salt', hbytes, rfl⟩ := exists_of_hashPassword h
  obtain ⟨bytes', hbytes', hkey⟩ := verifyPassword_hash.mp hverify
  exact ⟨salt', bytes', bytes, hbytes', hbytes, hkey⟩

/-! ## Every run -/

/-- The operation stores a membership or a message. -/
def DbOp.IsStore : DbOp → Prop
  | .addMembership _ _ | .saveChannelMessage _ _ _ | .saveDm _ _ _ => True
  | .upsertUser _ | .createUser _ _ => False

/-- The database, and who registered with which password. -/
structure Accounts where
  db : Database
  registered : List (Username × PyStr)

/-- The operations of the gateway that change the database. -/
inductive AccountStep (pbkdf2Hmac : Pbkdf2Hmac) : Accounts → Accounts → Prop where
  | register {a : Accounts} {u : Username} {password : PyStr} {random : Bytes} {db : Database} :
      registerUser pbkdf2Hmac a.db u password random = some db →
      AccountStep pbkdf2Hmac a ⟨db, a.registered ++ [(u, password)]⟩
  | devToken {a : Accounts} {u : Username} {db : Database} : devToken a.db u.name = some db →
      AccountStep pbkdf2Hmac a { a with db := db }
  | store {a : Accounts} {op : DbOp} {db : Database} : op.IsStore → op.run a.db = some db →
      AccountStep pbkdf2Hmac a { a with db := db }

/-- The gateway, from a database in which nobody has a password. -/
def accounts (pbkdf2Hmac : Pbkdf2Hmac) : Transition.System Accounts where
  init a := a.registered = [] ∧ ∀ user ∈ a.db.users, user.passwordHash = none
  step := AccountStep pbkdf2Hmac

/-- **The hash of a user is that of the registered password.** -/
structure AccountsOk (pbkdf2Hmac : Pbkdf2Hmac) (a : Accounts) : Prop where
  hashed : ∀ user ∈ a.db.users, ∀ hash, user.passwordHash = some hash →
    ∃ u password random, (u, password) ∈ a.registered ∧ u.name = user.username ∧
      hashPassword pbkdf2Hmac password none random = some hash
  kept : ∀ u password, (u, password) ∈ a.registered → ∃ hash random,
    ⟨u.name, some hash⟩ ∈ a.db.users ∧ hashPassword pbkdf2Hmac password none random = some hash

variable {a b : Accounts} {db db' : Database} {op : DbOp}

/-- A user that is not registered has no password. -/
theorem passwordHash_newUser {username : PyStr} {user : User} (h : user ∈ newUser db username) :
    user.passwordHash = none := by
  obtain ⟨-, -, rfl⟩ := List.mem_map.mp h
  rfl

theorem DbOp.passwordHash_rows {user : User} (h : user ∈ (op.rows db).users) :
    user.passwordHash = none ∨ ∃ username hash, op = .createUser username hash := by
  cases op with
  | createUser username hash => exact .inr ⟨username, hash, rfl⟩
  | upsertUser _ | addMembership _ _ | saveChannelMessage _ _ _ => exact .inl (passwordHash_newUser h)
  | saveDm _ _ _ =>
    exact .inl ((List.mem_append.mp h).elim passwordHash_newUser passwordHash_newUser)

theorem DbOp.users_of_run (h : op.run db = some db') :
    db'.users = db.users ++ (op.rows db).users := congrArg Tables.users (tables_of_run h)

theorem mem_of_getUser {username : PyStr} {user : User} (h : getUser db username = some user) :
    user ∈ db.users ∧ user.username = username := by
  have hname := List.find?_some (p := fun user : User => decide (user.username = username)) h
  exact ⟨List.mem_of_find?_eq_some h, of_decide_eq_true hname⟩

/-- The user row of a name is the only one. -/
theorem getUser_eq_some {username : PyStr} {user : User} (h : user ∈ db.users)
    (hname : user.username = username) : getUser db username = some user := by
  obtain ⟨user', huser'⟩ : ∃ user', getUser db username = some user' := by
    refine Option.isSome_iff_exists.mp (List.find?_isSome.mpr ⟨user, h, ?_⟩)
    exact decide_eq_true hname
  obtain ⟨hmem, hname'⟩ := mem_of_getUser huser'
  rw [huser', List.inj_on_of_nodup_map db.consistent.users hmem h (hname'.trans hname.symm)]

/-- **No operation changes a user that exists.** -/
theorem DbOp.getUser_of_run (h : op.run db = some db') {user : User} (huser : user ∈ db.users) :
    getUser db' user.username = some user := by
  refine getUser_eq_some ?_ rfl
  rw [users_of_run h]
  exact List.mem_append_left _ huser

/-- New users without a password. -/
theorem AccountsOk.of_new (ha : AccountsOk pbkdf2Hmac a) {new : List User}
    (hdb : db.users = a.db.users ++ new) (hnew : ∀ user ∈ new, user.passwordHash = none) :
    AccountsOk pbkdf2Hmac { a with db := db } := by
  constructor
  · intro user huser hash hhash
    rw [hdb] at huser
    rcases List.mem_append.mp huser with huser | huser
    · exact ha.hashed user huser hash hhash
    · rw [hnew user huser] at hhash
      cases hhash
  · intro u password hreg
    obtain ⟨hash, random, hmem, hhash⟩ := ha.kept u password hreg
    exact ⟨hash, random, by rw [hdb]; exact List.mem_append_left _ hmem, hhash⟩

theorem AccountsOk.step (ha : AccountsOk pbkdf2Hmac a) (h : AccountStep pbkdf2Hmac a b) :
    AccountsOk pbkdf2Hmac b := by
  cases h with
  | @register u password random db hdb =>
    obtain ⟨hash, hhash, hregister⟩ := Option.bind_eq_some_iff.mp hdb
    have hrun : (DbOp.createUser u.name hash).run a.db = some db := hregister
    have husers := DbOp.users_of_run hrun
    constructor
    · intro user huser hash' hhash'
      rw [husers] at huser
      rcases List.mem_append.mp huser with huser | huser
      · obtain ⟨u', password', random', hreg, hname, hhashed⟩ := ha.hashed user huser hash' hhash'
        exact ⟨u', password', random', List.mem_append_left _ hreg, hname, hhashed⟩
      · obtain rfl := List.mem_singleton.mp huser
        obtain rfl := Option.some.inj hhash'
        exact ⟨u, password, random, List.mem_concat_self, rfl, hhash⟩
    · intro u' password' hreg
      rw [husers]
      rcases List.mem_append.mp hreg with hreg | hreg
      · obtain ⟨hash', random', hmem, hhashed⟩ := ha.kept u' password' hreg
        exact ⟨hash', random', List.mem_append_left _ hmem, hhashed⟩
      · obtain ⟨rfl, rfl⟩ := Prod.mk.inj (List.mem_singleton.mp hreg)
        exact ⟨hash, random, List.mem_concat_self, hhash⟩
  | @devToken u db hdb =>
    have hrun : (DbOp.upsertUser u.name).run a.db = some db := hdb
    have husers := DbOp.users_of_run hrun
    exact ha.of_new husers fun user huser => passwordHash_newUser huser
  | @store op db hstore hdb =>
    refine ha.of_new (DbOp.users_of_run hdb) fun user huser => ?_
    rcases DbOp.passwordHash_rows huser with hnone | ⟨username, hash, rfl⟩
    · exact hnone
    · exact hstore.elim

theorem accountsOk (h : Transition.Reachable (accounts pbkdf2Hmac) a) :
    AccountsOk pbkdf2Hmac a := by
  refine Transition.Reachable.invariant (fun a ha => ?_)
    (fun a b _ ha (hst : AccountStep pbkdf2Hmac a b) => ha.step hst) h
  obtain ⟨hreg, hnone⟩ := ha
  refine ⟨fun user huser hash hhash => ?_, fun u password hmem => ?_⟩
  · rw [hnone user huser] at hhash
    cases hhash
  · rw [hreg] at hmem
    cases hmem

/-- **Login accepts exactly the registered password.**  Over every run of the operations of the
gateway, in any order and for any users: a login with a user and a password gets a token if and
only if the user registered with this password; no operation changes the row of a user that exists;
a user without a password never logs in; and a password is verified against its own hash. -/
theorem login_iff (hkdf : ∀ salt n, Function.Injective (pbkdf2Hmac · salt n))
    (h : Transition.Reachable (accounts pbkdf2Hmac) a) :
    (∀ u password, login pbkdf2Hmac a.db u password = some u ↔ (u, password) ∈ a.registered) ∧
    (∀ (op : DbOp) (db : Database), op.run a.db = some db →
      ∀ user ∈ a.db.users, getUser db user.username = some user) ∧
    (∀ (u : Username) password, (⟨u.name, none⟩ : User) ∈ a.db.users → login pbkdf2Hmac a.db u password = none) ∧
    ∀ password salt random, (encode password).isSome = true → salt ≠ [] →
      ∃ hash, hashPassword pbkdf2Hmac password (some salt) random = some hash ∧
        verifyPassword pbkdf2Hmac password (some hash) = true := by
  have hok := accountsOk h
  refine ⟨fun u password => ?_, fun op db hdb user huser => DbOp.getUser_of_run hdb huser,
    fun u password hmem => ?_, fun password salt random hencode _ => ?_⟩
  · constructor
    · intro hlogin
      unfold login at hlogin
      split at hlogin
      · cases hlogin
      · next user huser =>
        split_ifs at hlogin with hverify
        obtain ⟨hmem, hname⟩ := mem_of_getUser huser
        cases hhash : user.passwordHash with
        | none =>
          rw [hhash] at hverify
          cases hverify
        | some hash =>
          obtain ⟨u', password', random, hreg, hname', hhashed⟩ :=
            hok.hashed user hmem hash hhash
          rw [hhash] at hverify
          rw [(verifyPassword_hashPassword hkdf hhashed).mp hverify]
          obtain ⟨name, hvalid⟩ := u
          obtain ⟨name', hvalid'⟩ := u'
          obtain rfl : name' = name := hname'.trans hname
          exact hreg
    · intro hreg
      obtain ⟨hash, random, hmem, hhashed⟩ := hok.kept u password hreg
      unfold login
      rw [getUser_eq_some hmem rfl]
      exact if_pos ((verifyPassword_hashPassword hkdf hhashed).mpr rfl)
  · unfold login
    rw [getUser_eq_some hmem rfl]
    rfl
  · obtain ⟨bytes, hbytes⟩ := Option.isSome_iff_exists.mp hencode
    obtain ⟨hash, hhash⟩ : ∃ hash,
        hashPassword pbkdf2Hmac password (some salt) random = some hash := by
      unfold hashPassword
      rw [hbytes]
      exact ⟨_, rfl⟩
    exact ⟨hash, hhash, (verifyPassword_hashPassword hkdf hhash).mpr rfl⟩

/-- The digest of one password, and an injective filling for the others. -/
def sampleKdf : Pbkdf2Hmac := fun password salt iterations =>
  if password = [99, 104, 97, 110, 110, 101, 108, 119, 105, 114, 101] ∧
      salt = [48, 49, 50, 51, 52, 53, 54, 55, 56, 57, 97, 98, 99, 100, 101, 102] ∧
      iterations = 210000 then
    [89, 122, 132, 202, 70, 121, 233, 17, 120, 193, 227, 61, 164, 143, 128, 100, 135, 242, 220,
      103, 111, 130, 70, 13, 216, 69, 244, 207, 163, 9, 167, 5]
  else password ++ List.replicate 33 0

theorem sampleKdf_injective (salt : Bytes) (n : ℕ) : Function.Injective (sampleKdf · salt n) := by
  intro password password' h
  have hlen (p : Bytes) : (p ++ List.replicate 33 0).length = p.length + 33 := by
    rw [List.length_append, List.length_replicate]
  simp only [sampleKdf] at h
  split_ifs at h with h₁ h₂ h₂
  · exact h₁.1.trans h₂.1.symm
  · have := congrArg List.length h
    rw [hlen] at this
    simp only [List.length_cons, List.length_nil] at this
    omega
  · have := congrArg List.length h
    rw [hlen] at this
    simp only [List.length_cons, List.length_nil] at this
    omega
  · exact List.append_cancel_right h

theorem login_iff_registered : ∃ a u, Transition.Reachable (accounts sampleKdf) a ∧
    a.registered = [(u, py "channelwire")] ∧
    login sampleKdf a.db u (py "channelwire") = some u := by
  let u : Username := ⟨py "alice", by decide⟩
  obtain ⟨db, hdb⟩ : ∃ db, registerUser sampleKdf noRows u (py "channelwire")
      [48, 49, 50, 51, 52, 53, 54, 55, 56, 57, 97, 98, 99, 100, 101, 102] = some db :=
    Option.isSome_iff_exists.mp (by decide +kernel)
  have hfirst : AccountStep sampleKdf ⟨noRows, []⟩ ⟨db, [] ++ [(u, py "channelwire")]⟩ :=
    .register hdb
  have hreach : Transition.Reachable (accounts sampleKdf) ⟨db, [] ++ [(u, py "channelwire")]⟩ :=
    .step (.init ⟨rfl, fun _ huser => (List.not_mem_nil huser).elim⟩) hfirst
  exact ⟨_, u, hreach, rfl,
    ((login_iff sampleKdf_injective hreach).1 _ _).mpr (List.mem_singleton_self _)⟩

end Gateway
end ChannelWire
