import ChannelWire.Gateway.Texts
import Mathlib.Data.Set.Card

/-!
# Active users

`active_gateway_users` is counted up when a session has registered and down when its endpoint
returns, and a direct message is stored on the side of its sender only while the sender is counted.
A session that is counted and whose `send_json` raises before the `try` is never counted out: it is
left over (`Event.LeavesOver`).  So the counter of a name is the number of its sessions that run and
of those that were left over (`active_users_are_counted`).  There can be more than one that runs,
but only one that the core still serves under the name.
-/

namespace ChannelWire
namespace Gateway

/-- The sessions of a user that run. -/
def State.running (s : State) (name : PyStr) : Set ℕ :=
  {k | ∃ x, s.sessions k = some x ∧ x.phase = .running ∧ x.username.name = name}

variable {admits : State → Event → Prop} {s t : State} {e : Event} {j k : ℕ} {x y : Session}
  {name : PyStr}

/-- A session is overwritten. -/
theorem mem_running_of_setSession (ht : t.sessions = Function.update s.sessions k (some y)) :
    j ∈ t.running name ↔
      if j = k then y.phase = .running ∧ y.username.name = name else j ∈ s.running name := by
  unfold State.running
  rw [Set.mem_ofPred_eq, Set.mem_ofPred_eq, ht]
  split_ifs with hj
  · rw [hj, Function.update_self]
    exact ⟨fun ⟨_, heq, hy⟩ => Option.some.inj heq ▸ hy, fun hy => ⟨y, rfl, hy⟩⟩
  · rw [Function.update_of_ne hj]

theorem mem_running (hx : s.sessions k = some x) :
    k ∈ s.running name ↔ x.phase = .running ∧ x.username.name = name :=
  ⟨fun ⟨_, heq, hy⟩ => Option.some.inj (hx.symm.trans heq) ▸ hy, fun h => ⟨x, hx, h⟩⟩

/-- A session that runs on, or does not begin to. -/
theorem running_eq (ht : t.sessions = Function.update s.sessions k (some y))
    (h : k ∈ s.running name ↔ y.phase = .running ∧ y.username.name = name) :
    t.running name = s.running name := by
  ext j
  rw [mem_running_of_setSession ht]
  split_ifs with hj
  · rw [hj, h]
  · rfl

theorem running_insert (ht : t.sessions = Function.update s.sessions k (some y))
    (hphase : y.phase = .running) (hname : y.username.name = name) :
    t.running name = insert k (s.running name) := by
  ext j
  rw [mem_running_of_setSession ht, Set.mem_insert_iff]
  split_ifs with hj
  · exact ⟨fun _ => .inl hj, fun _ => ⟨hphase, hname⟩⟩
  · exact (or_iff_right hj).symm

theorem running_diff (ht : t.sessions = Function.update s.sessions k (some y))
    (hphase : y.phase ≠ .running) : t.running name = s.running name \ {k} := by
  ext j
  rw [mem_running_of_setSession ht, Set.mem_sdiff, Set.mem_singleton_iff]
  split_ifs with hj
  · exact ⟨fun h => absurd h.1 hphase, fun h => absurd hj h.2⟩
  · exact (and_iff_left hj).symm

/-- Every counter is right, if `left` sessions of each name were left over. -/
def ActiveOk (left : PyStr → ℕ) (s : State) : Prop :=
  ∀ name, (s.running name).encard + left name = s.active name

/-- A session of the name was counted and is left over: `send_json` raises before the `try`. -/
def Event.LeavesOver (s : State) (name : PyStr) (e : Event) : Prop :=
  ∃ k x, e = .abandon k true ∧ s.sessions k = some x ∧ x.username.name = name

/-- The counter of a name less its sessions that run. -/
noncomputable def State.leftOver (s : State) (name : PyStr) : ℕ :=
  s.active name - (s.running name).ncard

variable {left : PyStr → ℕ}

theorem ActiveOk.leftOver_eq (hs : ActiveOk left s) : s.leftOver = left := by
  funext name
  have hname := hs name
  have hfinite : (s.running name).Finite := by
    refine Set.finite_of_encard_le_coe (k := s.active name) ?_
    rw [← hname]
    exact le_self_add
  rw [← hfinite.cast_ncard_eq, ← ENat.natCast_add, ENat.natCast_inj] at hname
  unfold State.leftOver
  omega

/-- The counters and the sessions that run are the same. -/
theorem ActiveOk.same (hs : ActiveOk left s) (hactive : t.active = s.active)
    (ht : ∀ name, t.running name = s.running name) : ActiveOk left t := fun name => by
  rw [ht, hactive, hs]

/-- A session begins to run. -/
theorem ActiveOk.begin (hs : ActiveOk left s) (hx : s.sessions k = some x)
    (hnot : x.phase ≠ .running) (ht : t.sessions = Function.update s.sessions k (some y))
    (hphase : y.phase = .running) (hname : y.username = x.username) (hactive : t.active =
      Function.update s.active x.username.name (s.active x.username.name + 1)) :
    ActiveOk left t := by
  intro name
  have hout : ∀ name, k ∉ s.running name := fun name hk => hnot ((mem_running hx).mp hk).1
  rw [hactive]
  rcases eq_or_ne name x.username.name with rfl | hne
  · rw [running_insert ht hphase (congrArg Username.name hname),
      Set.encard_insert_of_notMem (hout _), Function.update_self, add_right_comm, hs,
      ENat.natCast_add, ENat.natCast_one]
  · rw [Function.update_of_ne hne, running_eq ht, hs]
    refine iff_of_false (hout name) fun hy => hne ?_
    rw [← hy.2, hname]

/-- A session that ran is over. -/
theorem ActiveOk.end (hs : ActiveOk left s) (hx : s.sessions k = some x)
    (hrun : x.phase = .running) (ht : t.sessions = Function.update s.sessions k (some y))
    (hphase : y.phase ≠ .running) (hactive : t.active =
      Function.update s.active x.username.name (s.active x.username.name - 1)) :
    ActiveOk left t := by
  intro name
  have hin : k ∈ s.running x.username.name := (mem_running hx).mpr ⟨hrun, rfl⟩
  rw [hactive]
  rcases eq_or_ne name x.username.name with rfl | hne
  · have hcount := hs x.username.name
    rw [← Set.encard_sdiff_singleton_add_one hin] at hcount
    rw [running_diff ht hphase, Function.update_self, ENat.natCast_sub, ← hcount, ENat.natCast_one,
      add_right_comm]
    exact ((ENat.addLECancellable_of_ne_top ENat.one_ne_top).add_tsub_cancel_right).symm
  · rw [Function.update_of_ne hne, running_eq ht, hs]
    refine iff_of_false (fun hk => hne ?_) fun hy => hphase hy.1
    exact ((mem_running hx).mp hk).2.symm

/-- A session that has registered does not begin to run, and perhaps is left over. -/
theorem ActiveOk.abandon (hs : ActiveOk left s) {frame : Frame} {counted : Bool}
    (hx : s.sessions k = some x) (hnot : x.phase ≠ .running) (name : PyStr) :
    ((s.abandon k x frame counted).running name).encard +
        (left name + if counted = true ∧ x.username.name = name then 1 else 0 : ℕ) =
      (s.abandon k x frame counted).active name := by
  have hrunning : (s.abandon k x frame counted).running name = s.running name := by
    refine running_eq (k := k) (y := x.abandoned frame) ?_ ?_
    · unfold State.abandon
      simp only
      split_ifs <;> rfl
    · exact iff_of_false (fun hk => hnot ((mem_running hx).mp hk).1) fun h => by cases h.1
  rw [hrunning]
  cases counted with
  | false =>
    rw [if_neg fun h => Bool.false_ne_true h.1, Nat.add_zero]
    exact hs name
  | true =>
    have hactive : (s.abandon k x frame true).active =
        Function.update s.active x.username.name (s.active x.username.name + 1) := rfl
    rw [hactive]
    rcases eq_or_ne name x.username.name with rfl | hne
    · rw [if_pos ⟨rfl, rfl⟩, Function.update_self, ENat.natCast_add, ENat.natCast_add, ← hs,
        add_assoc]
    · rw [if_neg fun h => hne h.2.symm, Function.update_of_ne hne, Nat.add_zero]
      exact hs name

open Classical in
theorem ActiveOk.step (hs : ActiveOk left s) (h : Step s e t) (name : PyStr) :
    (t.running name).encard + (left name + if e.LeavesOver s name then 1 else 0 : ℕ) =
      t.active name := by
  have hkeeps : (∀ k, e ≠ .abandon k true) → ActiveOk left t →
      (t.running name).encard + (left name + if e.LeavesOver s name then 1 else 0 : ℕ) =
        t.active name := by
    intro hother ht
    rw [if_neg fun ⟨k, _, he, _⟩ => hother k he]
    exact ht name
  cases h with
  | @abandon k x frame counted hx hphase _ _ =>
    have ht : ((s.abandon k x frame counted).running name).encard +
        (left name + if counted = true ∧ x.username.name = name then 1 else 0 : ℕ) =
          (s.abandon k x frame counted).active name :=
      hs.abandon hx (fun h => by rw [hphase] at h; cases h) name
    have hiff : Event.LeavesOver s name (.abandon k counted) ↔
        counted = true ∧ x.username.name = name := by
      constructor
      · rintro ⟨_, x', he, hx', hname⟩
        obtain ⟨rfl, rfl⟩ := Event.abandon.inj he
        obtain rfl := Option.some.inj (hx.symm.trans hx')
        exact ⟨rfl, hname⟩
      · rintro ⟨rfl, hname⟩
        exact ⟨k, x, rfl, hx, hname⟩
    simp only [hiff]
    exact ht
  | core _ _ | devToken _ | register _ => exact hkeeps (by simp) (hs.same rfl fun _ => rfl)
  | @connect k u hnone _ _ =>
    refine hkeeps (by simp) (hs.same rfl fun name =>
      running_eq (k := k) rfl (iff_of_false ?_ fun h => by cases h.1))
    rintro ⟨x, hx, -⟩
    rw [hnone] at hx
    cases hx
  | @read k x frame hx hphase _ =>
    refine hkeeps (by simp) ?_
    by_cases hreg : x.phase = .registering
    · have hnot : x.phase ≠ .running := fun h => by rw [hreg] at h; cases h
      unfold State.read Session.registered
      rw [hreg]
      simp only
      split_ifs with htype hrunning hrunning
      · exact hs.begin hx hnot rfl rfl rfl rfl
      · exact absurd rfl hrunning
      · cases hrunning
      · refine hs.same rfl fun name => running_eq (k := k) rfl ?_
        exact iff_of_false (fun hk => hnot ((mem_running hx).mp hk).1) fun h => by cases h.1
    · rw [State.read_eq hreg]
      have hy := Session.pumpCoreToWs_reads s.active s.db x frame
      refine hs.same rfl fun name => running_eq (k := k) rfl ?_
      rw [mem_running hx, hy.phase, hy.username]
  | @command k x loaded hx _ _ =>
    have hy := Session.pumpWsToCore_writes s.db x loaded
    refine hkeeps (by simp) (hs.same rfl fun name =>
      running_eq (y := (x.pumpWsToCore s.db loaded).1) rfl ?_)
    rw [mem_running hx, hy.phase, hy.username]
  | @finish k x cancelled hx hphase =>
    refine hkeeps (by simp) ?_
    unfold State.finish
    simp only
    split_ifs with hrun
    · exact hs.end hx hrun rfl (fun h => by cases h) rfl
    · refine hs.same rfl fun name => running_eq (k := k) rfl ?_
      exact iff_of_false (fun hk => hrun ((mem_running hx).mp hk).1) fun h => by cases h.1
  | @halt k x hx _ =>
    refine hkeeps (by simp) (hs.same rfl fun name =>
      running_eq (y := { x with reading := false }) rfl ?_)
    rw [mem_running hx]

theorem activeOk_of_initial (h : Initial s) : ActiveOk (fun _ => 0) s := by
  obtain ⟨-, hnone, hactive⟩ := h
  intro name
  have hempty : s.running name = ∅ := Set.eq_empty_of_forall_notMem fun k ⟨x, hx, _⟩ => by
    rw [hnone] at hx
    cases hx
  rw [hempty, Set.encard_empty, hactive]
  rfl

theorem activeOk (h : Reachable admits s) : ActiveOk s.leftOver s := by
  obtain ⟨left, hs⟩ : ∃ left, ActiveOk left s := by
    refine Transition.Reachable.invariant (P := fun s => ∃ left, ActiveOk left s) ?_ ?_ h
    · exact fun s hs => ⟨_, activeOk_of_initial hs⟩
    · rintro s t - ⟨left, hs⟩ ⟨e, -, hst⟩
      exact ⟨_, fun name => hs.step hst name⟩
  rwa [hs.leftOver_eq]

/-- Nothing is left over in a run in which no browser is gone at that moment. -/
theorem leftOver_eq_zero (h : Reachable admits s)
    (hadmits : ∀ s e, admits s e → ∀ name, ¬ e.LeavesOver s name) : ActiveOk (fun _ => 0) s := by
  refine Transition.Reachable.invariant (P := ActiveOk fun _ => 0) ?_ ?_ h
  · exact fun s hs => activeOk_of_initial hs
  · rintro s t - hs ⟨e, he, hst⟩ name
    have ht := hs.step hst name
    rwa [if_neg (hadmits s e he name)] at ht

/-- A session that runs is registered under its name, if the core still serves it. -/
theorem registered_of_running (h : Reachable KeepsNames s) (hx : s.sessions k = some x)
    (hrun : x.phase = .running) {i : Core.Slot} (hl : (s.core.clients i).Live)
    (hk : (s.core.clients i).conn = k) : (s.core.clients i).registered = true ∧
      (s.core.clients i).username = x.username.bytes := by
  have hok := sessionOk h hx
  obtain ⟨f, hf, htype⟩ := hok.running (.inl hrun)
  have hreg : (s.core.clients i).registered = true :=
    Core.registered_of_ok (Reachable.core h) hl (by rw [hk]; exact hok.reads.subset hf) htype
  exact ⟨hreg, (identityOk (h.keepsName k) hx).named i hl hk hreg⟩

open Classical in
/-- **Active users are counted.**  In every reachable state the counter of a name is the number of
its sessions whose endpoint runs and of those that were left over: of the latter each step leaves
one more exactly if it is a `send_json` that raises before the `try`, and in a run without such
steps there is none.  In a run without `NICK`s the core serves at most one of the sessions of a name
that run: the others have lost their connection. -/
theorem active_users_are_counted (h : Reachable admits s) :
    (∀ name, (s.running name).encard + s.leftOver name = s.active name) ∧
    (∀ e t, Step s e t → ∀ name,
      t.leftOver name = s.leftOver name + if e.LeavesOver s name then 1 else 0) ∧
    ((∀ s e, admits s e → ∀ name, ¬ e.LeavesOver s name) → ∀ name, s.leftOver name = 0) ∧
    ((∀ s e, admits s e → KeepsNames s e) → ∀ name, {k | k ∈ s.running name ∧
      ∃ i, (s.core.clients i).Live ∧ (s.core.clients i).conn = k}.Subsingleton) := by
  refine ⟨activeOk h, fun e t hst name => ?_, fun hadmits name => ?_, fun hadmits name => ?_⟩
  · have ht : ActiveOk _ t := fun name => (activeOk h).step hst name
    rw [ht.leftOver_eq]
  · rw [(leftOver_eq_zero h hadmits).leftOver_eq]
  have hkeeps : Reachable KeepsNames s := Transition.Reachable.of_admits hadmits h
  rintro _ ⟨⟨x, hx, hxrun, hxname⟩, i, hi, rfl⟩ _ ⟨⟨y, hy, hyrun, hyname⟩, j, hj, rfl⟩
  obtain ⟨hireg, hiname⟩ := registered_of_running hkeeps hx hxrun hi rfl
  obtain ⟨-, hjname⟩ := registered_of_running hkeeps hy hyrun hj rfl
  have hnames := Core.namesOk (Reachable.core h).moveReachable
  have hsame : x.username.bytes = y.username.bytes := by
    unfold Username.bytes
    rw [hxname, hyname]
  rw [hnames.unique i j hi hj ((hnames.registered_iff i).mp hireg)
    (hiname.trans (hsame.trans hjname.symm))]

/-- No operation of a schedule leaves a session over. -/
theorem admitted_noneLeftOver (s : State) (op : Op) :
    Admitted (fun s e => ∀ name, ¬ e.LeavesOver s name) s op := by
  have hnot : ∀ {s : State} {e : Event}, (∀ k, e ≠ .abandon k true) →
      ∀ name, ¬ e.LeavesOver s name := fun hother name ⟨k, _, he, _⟩ => hother k he
  cases op with
  | connect _ _ | deliver _ _ => exact ⟨hnot (by simp), hnot (by simp)⟩
  | flush _ | read _ | command _ _ | finish _ _ | halt _ => exact hnot (by simp)

/-- The browser of `alice` is online, or it is gone when the core has answered her `HELLO`. -/
theorem active_users_are_counted_alice :
    ((start.run aliceOnline).running alice.name).encard = 1 ∧
      ((start.run (aliceOnline.take 3)).abandon 1 (openRegisteredCore alice)
        ⟨ServerMsgType.ok.toByte, ascii "registered"⟩ true).leftOver alice.name = 1 := by
  have hreach : ∀ {ops : List Op}, Throughout (Enabled [1]) start ops →
      Reachable (fun s e => ∀ name, ¬ e.LeavesOver s name) (start.run ops) := fun hlegal =>
    reachable_of_schedule hlegal (hlegal.mono fun s op _ => admitted_noneLeftOver s op)
  have honline : Reachable _ (start.run aliceOnline) := hreach (by decide +kernel)
  have hasked : Reachable _ (start.run (aliceOnline.take 3)) := hreach (by decide +kernel)
  have hcounted : (start.run aliceOnline).active alice.name = 1 := by decide +kernel
  have hsession : (start.run (aliceOnline.take 3)).sessions 1 = some (openRegisteredCore alice) := by
    show Function.update start.sessions (start.core.stats.totalConnections + 1)
      (some (openRegisteredCore alice)) 1 = _
    exact Function.update_self ..
  have hstep : Step (start.run (aliceOnline.take 3)) (.abandon 1 true)
      ((start.run (aliceOnline.take 3)).abandon 1 (openRegisteredCore alice)
        ⟨ServerMsgType.ok.toByte, ascii "registered"⟩ true) :=
    .abandon hsession rfl (by decide +kernel) rfl
  obtain ⟨hcount, -, hnone, -⟩ := active_users_are_counted honline
  obtain ⟨-, hsteps, hnone', -⟩ := active_users_are_counted hasked
  constructor
  · have hname := hcount alice.name
    rw [hnone (fun _ _ h => h), hcounted] at hname
    simpa using hname
  · rw [hsteps _ _ hstep, hnone' (fun _ _ h => h),
      if_pos ⟨1, openRegisteredCore alice, rfl, hsession, rfl⟩]

end Gateway
end ChannelWire
