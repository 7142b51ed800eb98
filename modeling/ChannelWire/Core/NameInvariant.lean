import ChannelWire.Core.Actions
import ChannelWire.Core.Runs

/-!
# User names

`HELLO` and `NICK` both test a name against all slots and then write it into one, and slots
are reset by any handler and reused.  `NamesOk` is what survives: registered clients are those
with a name, names are valid, and no two live registered clients share one.  So `findUser`
depends on the name alone and not on the order of the slots (`NamesOk.findUser_eq_some_iff`).
-/

namespace ChannelWire
namespace Core

/-- **The name invariant.** -/
structure NamesOk (s : Server) : Prop where
  registered_iff : ∀ i, (s.clients i).registered = true ↔ (s.clients i).username ≠ []
  valid : ∀ i, (s.clients i).username ≠ [] → ValidName (s.clients i).username
  unique : ∀ i j, (s.clients i).Live → (s.clients j).Live →
    (s.clients i).username ≠ [] → (s.clients i).username = (s.clients j).username → i = j

theorem usernameInUse_eq_false_iff {s : Server} {name : Bytes} {i : Slot} :
    usernameInUse s name i = false ↔ ∀ j, j ≠ i → (s.clients j).Live →
      (s.clients j).registered = true → (s.clients j).username ≠ name := by
  unfold usernameInUse
  rw [List.any_eq_false]
  constructor
  · intro h j hj hl hr hn
    exact h j (mem_slots j) (decide_eq_true ⟨hj, hl, hr, hn⟩)
  · intro h j _ hj
    obtain ⟨hne, hl, hr, hn⟩ := of_decide_eq_true hj
    exact h j hne hl hr hn

namespace NamesOk

variable {s t : Server} {i : Slot} {c : Client}

/-- The invariant says nothing about the trace. -/
theorem emit (hs : NamesOk s) (e : Effect) : NamesOk (s.emit e) :=
  ⟨hs.registered_iff, hs.valid, hs.unique⟩

/-- One client changes, and neither its name nor its registration does; it may only have been
live before. -/
theorem congr (hs : NamesOk s) (ht : t.clients = Function.update s.clients i c)
    (hr : c.registered = (s.clients i).registered) (hn : c.username = (s.clients i).username)
    (hl : c.Live → (s.clients i).Live) : NamesOk t := by
  have hreg := observe_update Client.registered s.clients hr
  have hname := observe_update Client.username s.clients hn
  have hlive : ∀ j, (Function.update s.clients i c j).Live → (s.clients j).Live := by
    intro j hj
    rcases eq_or_ne j i with rfl | hne
    · exact hl (by rwa [Function.update_self] at hj)
    · rwa [Function.update_of_ne hne] at hj
  refine ⟨fun j => ?_, fun j => ?_, fun j k => ?_⟩
  · rw [ht, hreg, hname]
    exact hs.registered_iff j
  · rw [ht, hname]
    exact hs.valid j
  · rw [ht, hname, hname]
    exact fun hj hk => hs.unique j k (hlive j hj) (hlive k hk)

/-- A slot is blanked, or given to a new connection. -/
theorem blank (hs : NamesOk s) (ht : t.clients = Function.update s.clients i c)
    (hr : c.registered = false) (hn : c.username = []) : NamesOk t := by
  refine ⟨fun j => ?_, fun j => ?_, fun j k => ?_⟩
  · rw [ht]
    rcases eq_or_ne j i with rfl | hj
    · simp [hr, hn]
    · rw [Function.update_of_ne hj]
      exact hs.registered_iff j
  · rw [ht]
    rcases eq_or_ne j i with rfl | hj
    · simp [hn]
    · rw [Function.update_of_ne hj]
      exact hs.valid j
  · rw [ht]
    rcases eq_or_ne j i with rfl | hj
    · simp [hn]
    · rcases eq_or_ne k i with rfl | hk
      · rw [Function.update_self, Function.update_of_ne hj, hn]
        exact fun _ _ hne heq => absurd heq hne
      · rw [Function.update_of_ne hj, Function.update_of_ne hk]
        exact hs.unique j k

/-- A client takes a valid name that no other one has. -/
theorem rename {name : Bytes} (hs : NamesOk s) (hv : ValidName name)
    (hfree : usernameInUse s name i = false) :
    NamesOk (s.setClient i { s.clients i with username := name, registered := true }) := by
  have hother := usernameInUse_eq_false_iff.mp hfree
  have hfresh : ∀ j, j ≠ i → (s.clients j).Live → (s.clients j).username ≠ name := by
    intro j hj hl hname
    exact hother j hj hl ((hs.registered_iff j).mpr (hname ▸ hv.ne_nil)) hname
  refine ⟨fun j => ?_, fun j => ?_, fun j k => ?_⟩
  · rcases eq_or_ne j i with rfl | hj
    · simp [hv.ne_nil]
    · rw [Server.setClient_of_ne hj]
      exact hs.registered_iff j
  · rcases eq_or_ne j i with rfl | hj
    · simp [hv]
    · rw [Server.setClient_of_ne hj]
      exact hs.valid j
  · rcases eq_or_ne j i with rfl | hj <;> rcases eq_or_ne k j with rfl | hk
    · exact fun _ _ _ _ => rfl
    · rw [Server.setClient_self, Server.setClient_of_ne hk]
      exact fun _ hl _ heq => absurd heq.symm (hfresh k hk hl)
    · exact fun _ _ _ _ => rfl
    · rcases eq_or_ne k i with rfl | hk'
      · rw [Server.setClient_self, Server.setClient_of_ne hj]
        exact fun hl _ _ heq => absurd heq (hfresh j hj hl)
      · rw [Server.setClient_of_ne hj, Server.setClient_of_ne hk']
        exact hs.unique j k

/-- The slots play no part in the choice of the addressee. -/
theorem findUser_eq_some_iff (hs : NamesOk s) {name : Bytes} :
    findUser s name = some i ↔ (s.clients i).Live ∧ (s.clients i).registered = true ∧
      (s.clients i).username = name := by
  refine ⟨findUser_eq_some, fun h => ?_⟩
  obtain ⟨hl, hr, hn⟩ := h
  cases hf : findUser s name with
  | none =>
    have hnone := List.find?_eq_none.mp hf i (mem_slots i)
    exact absurd (decide_eq_true ⟨hl, hr, hn⟩) hnone
  | some j =>
    obtain ⟨hl', hr', hn'⟩ := findUser_eq_some hf
    rw [hs.unique j i hl' hl ((hs.registered_iff j).mp hr') (hn'.trans hn.symm)]

end NamesOk

/-! ## Every run -/

theorem Action.namesOk {r : Request} {s t : Server} (h : Action r s t) (hs : NamesOk s) :
    NamesOk t := by
  cases h with
  | push _ hl _ _ => exact hs.congr (pushFrame_clients ..) rfl rfl fun _ => hl
  | drop _ _ => exact hs.blank (overflowDisconnect_clients ..) rfl rfl
  | rename _ _ hname hfree => exact hs.rename (readName_eq_some hname).2.1 hfree
  | openChannel _ _ _ => exact ⟨hs.registered_iff, hs.valid, hs.unique⟩
  | join hl _ _ _ => exact hs.congr rfl rfl rfl fun _ => hl
  | switch hl _ _ _ => exact hs.congr rfl rfl rfl fun _ => hl
  | leave hl _ => exact hs.congr rfl rfl rfl fun _ => hl
  | count _ _ => exact ⟨hs.registered_iff, hs.valid, hs.unique⟩
  | quit _ _ => exact hs.blank (disconnectClient_clients ..) rfl rfl
  | announce _ _ _ _ _ _ => exact ⟨hs.registered_iff, hs.valid, hs.unique⟩

theorem Move.namesOk {s t : Server} (h : Move s t) (hs : NamesOk s) : NamesOk t := by
  cases h with
  | act ha => exact ha.namesOk hs
  | accept _ _ => exact hs.blank rfl rfl rfl
  | receive hl _ _ => exact hs.congr rfl rfl rfl fun _ => hl
  | handle _ => exact ⟨hs.registered_iff, hs.valid, hs.unique⟩
  | malformed _ => exact ⟨hs.registered_iff, hs.valid, hs.unique⟩
  | shift hl => exact hs.congr rfl rfl rfl fun _ => hl
  | send hl hout _ _ =>
    obtain ⟨out, queuedBytes, hclients, -⟩ := takeSent_clients hout
    exact hs.congr hclients rfl rfl fun _ => hl
  | disconnect _ => exact hs.blank (disconnectClient_clients ..) rfl rfl

theorem namesOk {s : Server} (h : MoveReachable s) : NamesOk s := by
  refine MoveReachable.invariant ?_ (fun _ _ _ hs hm => hm.namesOk hs) h
  intro maxQueueBytes heap _
  refine ⟨fun i => ?_, fun i hi => absurd rfl hi, fun i _ _ _ hi => absurd rfl hi⟩
  simp [Server.initial, Client.blank]

/-- **User names are unique and valid.**  In every reachable state no two live registered clients
have the same name; a client is registered exactly when its name is not empty, and its name is
then 1 to 32 characters of `[A-Za-z0-9_.-]`; `snprintf` stores every name that `HELLO` and
`NICK` accept as it was sent; and the client `handle_dm` finds for a name is the only one of that
name. -/
theorem usernames_unique_and_valid {s : Server} (h : Reachable s) :
    (∀ i j, (s.clients i).Live → (s.clients j).Live → (s.clients i).registered = true →
      (s.clients j).registered = true → (s.clients i).username = (s.clients j).username → i = j) ∧
    (∀ i, ((s.clients i).registered = true ↔ (s.clients i).username ≠ []) ∧
      ((s.clients i).registered = true → 1 ≤ (s.clients i).username.length ∧
        (s.clients i).username.length ≤ 32 ∧
        ∀ c ∈ (s.clients i).username, isNameByte c = true)) ∧
    (∀ payload name, readName payload cwNameCap = some name →
      snprintf (cwNameCap + 1) name = name) ∧
    ∀ name i, findUser s name = some i ↔ (s.clients i).Live ∧
      (s.clients i).registered = true ∧ (s.clients i).username = name := by
  have hs := namesOk h.moveReachable
  refine ⟨fun i j hi hj hr _ heq => hs.unique i j hi hj ((hs.registered_iff i).mp hr) heq,
    fun i => ⟨hs.registered_iff i, fun hr => ?_⟩, fun payload name hread => ?_,
    fun name i => hs.findUser_eq_some_iff⟩
  · exact cwValidName_eq_true.mp (hs.valid i ((hs.registered_iff i).mp hr))
  · exact (readName_eq_some hread).2.2

theorem usernames_unique_and_valid_room :
    findUser roomWithText (ascii "bob") = some 1 :=
  ((usernames_unique_and_valid reachable_roomWithText).2.2.2 (ascii "bob") 1).mpr
    ⟨by decide +kernel, by decide +kernel, by decide +kernel⟩

end Core
end ChannelWire
