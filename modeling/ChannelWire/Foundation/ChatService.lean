import ChannelWire.Foundation.Transition
import Mathlib.Data.Set.Card
import Mathlib.Logic.Function.Basic

/-!
# A chat service

What a chat server does, without slots, queues, bytes and sockets: users come and go, take names,
join channels, and say something to a channel or to one another.  A message is delivered to its
audience at once; whoever cannot take it is gone afterwards.

All messages stand in one log, each with its address and its audience, which are the users that
the address stands for when the message is said (`State.meant`).  `agreement` says what everybody
sees of the log: a user has got the messages meant for it, in the order of the log and each once,
up to the one it was lost at.

A program of which each step is a message at most, and what follows from it, `Goes` with the
service.
-/

namespace ChatService

open Relation

variable {κ ν χ τ : Type*}

/-- A user that is there: its name, the channels it has joined and the one it talks in. -/
structure User (ν χ : Type*) where
  name : Option ν
  channels : Set χ
  current : Option χ

/-- A user that just came. -/
def User.new : User ν χ := ⟨none, ∅, none⟩

/-- What a user can be told of the others. -/
inductive Message (ν χ τ : Type*) where
  | chat (channel : χ) (sender : ν) (text : τ)
  | direct (sender : ν) (text : τ)
  | renamed (old new : ν)

/-- Whom a message is addressed to: the members of a channel, without its author or with it, or the
user of a name. -/
inductive Address (ν χ : Type*) where
  | channel (c : χ)
  | others (c : χ)
  | user (n : ν)

/-- A message, who caused it and whom it is meant for. -/
structure Entry (κ ν χ τ : Type*) where
  author : κ
  address : Address ν χ
  audience : Set κ
  message : Message ν χ τ

open Classical in
/-- The messages of a log that are meant for a user. -/
noncomputable def dueIn (log : List (Entry κ ν χ τ)) (k : κ) : List (Message ν χ τ) :=
  (log.filter fun e => k ∈ e.audience).map Entry.message

/-- The users that are there, the channels, all messages, and what each user got of them. -/
structure State (κ ν χ τ : Type*) where
  user : κ → Option (User ν χ)
  channels : Set χ
  log : List (Entry κ ν χ τ)
  inbox : κ → List (Message ν χ τ)

namespace State

/-- Nobody is there, and nothing was said. -/
def empty : State κ ν χ τ := ⟨fun _ => none, ∅, [], fun _ => []⟩

variable (a : State κ ν χ τ)

/-- The users in a channel. -/
def members (c : χ) : Set κ := {k | ∃ u, a.user k = some u ∧ c ∈ u.channels}

/-- The users of a name. -/
def named (n : ν) : Set κ := {k | ∃ u, a.user k = some u ∧ u.name = some n}

/-- The users that an address stands for, when `k` says something. -/
def meant (k : κ) : Address ν χ → Set κ
  | .channel c => a.members c
  | .others c => a.members c \ {k}
  | .user n => a.named n

/-- What `k` says now. -/
def entry (k : κ) (address : Address ν χ) (message : Message ν χ τ) : Entry κ ν χ τ :=
  ⟨k, address, a.meant k address, message⟩

/-- Nobody but `k` has the name. -/
def Free (k : κ) (n : ν) : Prop := ∀ j v, j ≠ k → a.user j = some v → v.name ≠ some n

/-- A user comes, changes or goes. -/
def set [DecidableEq κ] (k : κ) (u : Option (User ν χ)) : State κ ν χ τ :=
  { a with user := Function.update a.user k u }

@[simp] theorem set_self [DecidableEq κ] (k : κ) (u : Option (User ν χ)) : (a.set k u).user k = u :=
  Function.update_self ..

theorem set_of_ne [DecidableEq κ] {j k : κ} (u : Option (User ν χ)) (h : j ≠ k) :
    (a.set k u).user j = a.user j := Function.update_of_ne h ..

open Classical in
/-- A message reaches its audience, but for those that are lost. -/
noncomputable def deliver (e : Entry κ ν χ τ) (lost : Set κ) : State κ ν χ τ :=
  { user := fun k => if k ∈ lost then none else a.user k
    channels := a.channels
    log := a.log ++ [e]
    inbox := fun k => if k ∈ e.audience ∧ k ∉ lost then a.inbox k ++ [e.message] else a.inbox k }

/-- The messages meant for a user. -/
noncomputable def due (k : κ) : List (Message ν χ τ) := dueIn a.log k

end State

/-- The transitions of a service that has room for `capacity` channels. -/
inductive Step [DecidableEq κ] (capacity : ℕ) : State κ ν χ τ → State κ ν χ τ → Prop where
  /-- Somebody new comes. -/
  | enter {a : State κ ν χ τ} {k : κ} : a.user k = none → a.inbox k = [] →
      (∀ e ∈ a.log, k ∉ e.audience) → Step capacity a (a.set k (some .new))
  | exit {a : State κ ν χ τ} {k : κ} {u : User ν χ} : a.user k = some u →
      Step capacity a (a.set k none)
  /-- A user takes a name, and nobody is told. -/
  | name {a : State κ ν χ τ} {k : κ} {u : User ν χ} {n : ν} : a.user k = some u → a.Free k n →
      Step capacity a (a.set k (some { u with name := some n }))
  /-- A user takes another name, and the others in its channel are told. -/
  | rename {a : State κ ν χ τ} {k : κ} {u : User ν χ} {c : χ} {old n : ν} {lost : Set κ} :
      a.user k = some u → a.Free k n → u.name = some old → u.current = some c →
      lost ⊆ a.members c \ {k} →
      Step capacity a ((a.set k (some { u with name := some n })).deliver
        (a.entry k (.others c) (.renamed old n)) lost)
  /-- A named user enters a channel, which is opened if there is none of that name. -/
  | join {a : State κ ν χ τ} {k : κ} {u : User ν χ} {c : χ} : a.user k = some u → u.name ≠ none →
      c ∈ a.channels ∨ a.channels.encard < capacity →
      Step capacity a { a.set k (some { u with channels := insert c u.channels, current := some c })
        with channels := insert c a.channels }
  | switch {a : State κ ν χ τ} {k : κ} {u : User ν χ} {c : χ} : a.user k = some u →
      c ∈ u.channels → Step capacity a (a.set k (some { u with current := some c }))
  | leave {a : State κ ν χ τ} {k : κ} {u : User ν χ} {c : χ} {current : Option χ} :
      a.user k = some u → c ∈ u.channels →
      (u.current = some c → current = none) → (u.current ≠ some c → current = u.current) →
      Step capacity a (a.set k (some { u with channels := u.channels \ {c}, current := current }))
  /-- A named user says something to the members of its channel. -/
  | post {a : State κ ν χ τ} {k : κ} {u : User ν χ} {n : ν} {c : χ} {t : τ} {lost : Set κ} :
      a.user k = some u → u.name = some n → u.current = some c → lost ⊆ a.members c →
      Step capacity a (a.deliver (a.entry k (.channel c) (.chat c n t)) lost)
  /-- A named user says something to the user of another name. -/
  | direct {a : State κ ν χ τ} {k : κ} {u : User ν χ} {m n : ν} {t : τ} {lost : Set κ} :
      a.user k = some u → u.name = some n → (a.named m).Nonempty → lost ⊆ a.named m →
      Step capacity a (a.deliver (a.entry k (.user m) (.direct n t)) lost)

/-- A service that has room for `capacity` channels. -/
def system [DecidableEq κ] (capacity : ℕ) : Transition.System (State κ ν χ τ) where
  init a := a = .empty
  step := Step capacity

/-! ## What everybody sees of the log -/

/-- What a user got is the beginning of what is meant for it, and all of it while it is there. -/
def Agrees (a : State κ ν χ τ) : Prop :=
  ∀ k, a.inbox k <+: a.due k ∧ (a.user k ≠ none → a.inbox k = a.due k)

variable {a b : State κ ν χ τ}

theorem Agrees.congr (ha : Agrees a) (hlog : b.log = a.log) (hinbox : b.inbox = a.inbox)
    (huser : ∀ k, b.user k ≠ none → a.user k ≠ none ∨ a.inbox k = a.due k) : Agrees b := by
  have hdue : b.due = a.due := by
    funext k
    rw [State.due, State.due, hlog]
  intro k
  rw [hdue, hinbox]
  exact ⟨(ha k).1, fun hk => (huser k hk).elim (ha k).2 id⟩

theorem State.due_deliver (a : State κ ν χ τ) (e : Entry κ ν χ τ) (lost : Set κ) (k : κ) :
    (k ∈ e.audience → (a.deliver e lost).due k = a.due k ++ [e.message]) ∧
      (k ∉ e.audience → (a.deliver e lost).due k = a.due k) := by
  unfold State.due dueIn State.deliver
  constructor <;> intro hk <;> simp [List.filter_append, hk]

/-- A delivery to users that are there. -/
theorem Agrees.deliver (ha : Agrees a) {e : Entry κ ν χ τ} {lost : Set κ}
    (hlost : lost ⊆ e.audience)
    (hthere : ∀ k ∈ e.audience, a.user k ≠ none) : Agrees (a.deliver e lost) := by
  intro k
  obtain ⟨hdue, hsame⟩ := a.due_deliver e lost k
  by_cases hk : k ∈ e.audience
  · rw [hdue hk]
    have hall := (ha k).2 (hthere k hk)
    by_cases hgone : k ∈ lost
    · -- the message is the first one the user does not get
      have hinbox : (a.deliver e lost).inbox k = a.inbox k := if_neg fun h => h.2 hgone
      have huser : (a.deliver e lost).user k = none := if_pos hgone
      rw [hinbox, hall]
      exact ⟨List.prefix_append .., fun h => absurd huser h⟩
    · have hinbox : (a.deliver e lost).inbox k = a.inbox k ++ [e.message] := if_pos ⟨hk, hgone⟩
      rw [hinbox, hall]
      exact ⟨List.prefix_rfl, fun _ => rfl⟩
  · have hinbox : (a.deliver e lost).inbox k = a.inbox k := if_neg fun h => hk h.1
    have huser : (a.deliver e lost).user k = a.user k := if_neg fun h => hk (hlost h)
    rw [hsame hk, hinbox, huser]
    exact ha k

theorem State.user_ne_none_of_mem_named {k : κ} {n : ν} (h : k ∈ a.named n) : a.user k ≠ none := by
  obtain ⟨u, hu, -⟩ := h
  rw [hu]
  exact Option.some_ne_none u

theorem State.user_ne_none_of_mem_members {k : κ} {c : χ} (h : k ∈ a.members c) :
    a.user k ≠ none := by
  obtain ⟨u, hu, -⟩ := h
  rw [hu]
  exact Option.some_ne_none u

variable [DecidableEq κ]

/-- A user that was there changes, or goes. -/
theorem Agrees.set (ha : Agrees a) {k : κ} {u : User ν χ} (hk : a.user k = some u)
    (v : Option (User ν χ)) : Agrees (a.set k v) := by
  refine ha.congr rfl rfl fun j hj => ?_
  rcases eq_or_ne j k with rfl | hne
  · exact .inl (by rw [hk]; exact Option.some_ne_none u)
  · exact .inl (by rwa [a.set_of_ne _ hne] at hj)

theorem Step.agrees {capacity : ℕ} (h : Step capacity a b) (ha : Agrees a) : Agrees b := by
  cases h with
  | @enter k _ hinbox hlog =>
    refine ha.congr rfl rfl fun j hj => ?_
    rcases eq_or_ne j k with rfl | hne
    · refine .inr ?_
      rw [hinbox, State.due, dueIn, List.filter_eq_nil_iff.mpr fun e he => by simpa using hlog e he]
      rfl
    · exact .inl (by rwa [a.set_of_ne _ hne] at hj)
  | exit hk => exact ha.set hk none
  | name hk _ => exact ha.set hk _
  | @rename k u c old n lost hk _ _ _ hlost =>
    refine (ha.set hk _).deliver hlost fun j hj => ?_
    rw [a.set_of_ne _ hj.2]
    exact State.user_ne_none_of_mem_members hj.1
  | join hk _ _ => exact (ha.set hk _).congr rfl rfl fun _ hj => .inl hj
  | switch hk _ => exact ha.set hk _
  | leave hk _ _ _ => exact ha.set hk _
  | post hk _ _ hlost => exact ha.deliver hlost fun j hj => State.user_ne_none_of_mem_members hj
  | direct _ _ _ hlost => exact ha.deliver hlost fun j hj => State.user_ne_none_of_mem_named hj

/-- **Everybody sees the same log.** -/
theorem agreement {capacity : ℕ} (h : Transition.Reachable (system capacity) a) : Agrees a := by
  refine h.invariant (P := Agrees) (fun b hb => ?_) fun _ _ _ ha hstep => Step.agrees hstep ha
  obtain rfl : b = .empty := hb
  exact fun _ => ⟨List.prefix_rfl, fun hk => absurd rfl hk⟩

/-! ## One step of a program -/

/-- A transition that logs nothing. -/
def Quiet (capacity : ℕ) (a b : State κ ν χ τ) : Prop := Step capacity a b ∧ b.log = a.log

/-- A transition that logs a message, meant for the users its address stands for. -/
structure Logs (capacity : ℕ) (a : State κ ν χ τ) (e : Entry κ ν χ τ) (b : State κ ν χ τ) :
    Prop where
  step : Step capacity a b
  log : b.log = a.log ++ [e]
  audience : e.audience = a.meant e.author e.address

/-- The message that meets `Q`, if there is one, and what happens after it. -/
def Goes (capacity : ℕ) (Q : Entry κ ν χ τ → Prop) (a b : State κ ν χ τ) : Prop :=
  (∀ e, ¬ Q e) ∧ ReflTransGen (Quiet capacity) a b ∨
    ∃ e c, Q e ∧ Logs capacity a e c ∧ ReflTransGen (Quiet capacity) c b

theorem log_of_quiet {capacity : ℕ} (h : ReflTransGen (Quiet capacity) a b) : b.log = a.log := by
  induction h with
  | refl => rfl
  | tail _ hst ih => exact hst.2.trans ih

namespace Goes

variable {capacity : ℕ} {Q : Entry κ ν χ τ → Prop} {c : State κ ν χ τ}

theorem logs {e : Entry κ ν χ τ} (h : Logs capacity a e b) (he : Q e) : Goes capacity Q a b :=
  .inr ⟨e, b, he, h, .refl⟩

theorem trans (h : Goes capacity Q a b) (h' : ReflTransGen (Quiet capacity) b c) :
    Goes capacity Q a c := by
  rcases h with ⟨hnone, h⟩ | ⟨e, d, he, hlogs, h⟩
  · exact .inl ⟨hnone, h.trans h'⟩
  · exact .inr ⟨e, d, he, hlogs, h.trans h'⟩

theorem log (h : Goes capacity Q a b) :
    (∀ e, ¬ Q e) ∧ b.log = a.log ∨ ∃ e, Q e ∧ b.log = a.log ++ [e] := by
  rcases h with ⟨hnone, h⟩ | ⟨e, c, he, hlogs, h⟩
  · exact .inl ⟨hnone, log_of_quiet h⟩
  · exact .inr ⟨e, he, (log_of_quiet h).trans hlogs.log⟩

theorem steps (h : Goes capacity Q a b) : ReflTransGen (Step capacity) a b := by
  rcases h with ⟨-, h⟩ | ⟨e, c, -, hlogs, h⟩
  · exact ReflTransGen.mono (fun _ _ h => h.1) _ _ h
  · exact .head hlogs.step (ReflTransGen.mono (fun _ _ h => h.1) _ _ h)

end Goes

end ChatService
