import ChannelWire.Foundation.JsonText
import ChannelWire.Foundation.Transition
import Mathlib.Data.Finset.Card
import Mathlib.Order.Interval.Finset.Nat

/-!
# The readiness check

`startReadinessCheck` runs `check` up to six times.  All runs share one number, one controller and
two timers, which are in refs; a run knows that it is over by its number.

A run is at one of three stages (`Stage`): it is over, it waits for a request, or it waits for its
retry timer.  An old run changes nothing that the page shows, but its `finally` block clears the
request timer in the ref without asking whose it is (`Disturbs`): `readiness_runs_iff` says that this
is all the harm, and `request_without_timer` is a run in which it is done.
-/

namespace ChannelWire
namespace Frontend

open JsonText (Json text)
open Transition (Reachable System)

/-- The type `BackendReadiness`. -/
inductive BackendReadiness where
  | checking | ready | failed
  deriving DecidableEq, Repr

/-- Where a call of `check` stands: at the race, at `response.json()`, or behind its `finally`. -/
inductive Phase where
  | fetching | reading | done
  deriving DecidableEq, Repr

/-- A call of `check`: its arguments, whether its controller is aborted, and whether the timers it
set are armed. -/
structure Check where
  run : ℕ
  attempt : ℕ
  phase : Phase
  aborted : Bool
  requestTimer : Bool
  retryTimer : Bool

/-- The refs and states of the readiness check.  A controller or a timer is named by the call of
`check` that made it. -/
structure Readiness where
  readinessRunRef : ℕ
  readinessAbortRef : Option ℕ
  readinessRequestTimerRef : Option ℕ
  readinessRetryTimerRef : Option ℕ
  backendReadiness : BackendReadiness
  health : Option Json
  healthError : String
  checks : ℕ → Check
  /-- How many calls of `check` there were. -/
  calls : ℕ

/-- `READINESS_MAX_ATTEMPTS`. -/
def readinessMaxAttempts : ℕ := 6

/-- What `check` asks of `nextHealth`. -/
def isHealth : Json → Bool
  | .object fields =>
    match fields.lookup (text "status"), fields.lookup (text "core_host"),
      fields.lookup (text "core_port") with
    | some (.string status), some (.string _), some (.number _) => status = text "ok"
    | _, _, _ => false
  | _ => false

namespace Readiness

def initial : Readiness where
  readinessRunRef := 0
  readinessAbortRef := none
  readinessRequestTimerRef := none
  readinessRetryTimerRef := none
  backendReadiness := .checking
  health := none
  healthError := ""
  checks := fun _ => ⟨0, 0, .done, false, false, false⟩
  calls := 0

/-- A call, if one is named, changes. -/
def modify (s : Readiness) (c : Option ℕ) (f : Check → Check) : Readiness :=
  { s with checks := fun d => if c = some d then f (s.checks d) else s.checks d }

/-- The first `if` of `clearReadinessTimers`, which is also in the `finally` block. -/
def clearRequestTimer (s : Readiness) : Readiness :=
  { s.modify s.readinessRequestTimerRef fun check => { check with requestTimer := false } with
    readinessRequestTimerRef := none }

/-- The second `if` of `clearReadinessTimers`. -/
def clearRetryTimer (s : Readiness) : Readiness :=
  { s.modify s.readinessRetryTimerRef fun check => { check with retryTimer := false } with
    readinessRetryTimerRef := none }

/-- `clearReadinessTimers`. -/
def clearReadinessTimers (s : Readiness) : Readiness := s.clearRequestTimer.clearRetryTimer

/-- The controller in the ref, if any, is aborted and forgotten. -/
def abort (s : Readiness) : Readiness :=
  { s.modify s.readinessAbortRef fun check => { check with aborted := true } with
    readinessAbortRef := none }

/-- `cancelReadinessCheck`. -/
def cancelReadinessCheck (s : Readiness) : Readiness :=
  let s := { s with readinessRunRef := s.readinessRunRef + 1 }
  s.abort.clearReadinessTimers

/-- `check`, up to its first `await`. -/
def check (s : Readiness) (run attempt : ℕ) : Readiness :=
  let controller := s.calls
  { s with
    checks := Function.update s.checks controller ⟨run, attempt, .fetching, false, true, false⟩
    readinessAbortRef := some controller
    readinessRequestTimerRef := some controller
    calls := s.calls + 1 }

/-- `startReadinessCheck`. -/
def startReadinessCheck (s : Readiness) : Readiness :=
  let s := s.cancelReadinessCheck
  let s := { s with backendReadiness := .checking, health := none, healthError := "" }
  s.check s.readinessRunRef 1

/-- The end of the `try` block. -/
def becomeReady (s : Readiness) (c : ℕ) (nextHealth : Json) : Readiness :=
  if s.readinessRunRef ≠ (s.checks c).run then s
  else { s with health := some nextHealth, backendReadiness := .ready }

/-- The `catch` block. -/
def catchBlock (s : Readiness) (c : ℕ) : Readiness :=
  if s.readinessRunRef ≠ (s.checks c).run then s
  else if readinessMaxAttempts ≤ (s.checks c).attempt then
    { s with health := none, backendReadiness := .failed }
  else
    { s.modify (some c) fun check => { check with retryTimer := true } with
      readinessRetryTimerRef := some c }

/-- The `finally` block. -/
def finallyBlock (s : Readiness) (c : ℕ) : Readiness :=
  let s := s.clearRequestTimer
  let s := if s.readinessAbortRef = some c then { s with readinessAbortRef := none } else s
  s.modify (some c) fun check => { check with phase := .done }

end Readiness

/-- What happens to the readiness check: its functions are called, a request settles (`none` when
it rejects, else `response.ok`), its body does, or a timer fires. -/
inductive ReadinessEvent where
  | startReadinessCheck
  | cancelReadinessCheck
  | fetched (c : ℕ) (ok : Option Bool)
  | parsed (c : ℕ) (body : Option Json)
  | requestTimer (c : ℕ)
  | retryTimer (c : ℕ)

namespace Readiness

/-- One event; `none` when it cannot happen.  The blocks behind an `await` run in the event that
ends the wait. -/
def step (s : Readiness) : ReadinessEvent → Option Readiness
  | .startReadinessCheck => some s.startReadinessCheck
  | .cancelReadinessCheck => some s.cancelReadinessCheck
  | .fetched c ok =>
    if (s.checks c).phase ≠ .fetching then none
    else if ok = some true then some (s.modify (some c) fun check => { check with phase := .reading })
    else some ((s.catchBlock c).finallyBlock c)
  | .parsed c body =>
    if (s.checks c).phase ≠ .reading then none
    else match body.filter isHealth with
      | some nextHealth => some ((s.becomeReady c nextHealth).finallyBlock c)
      | none => some ((s.catchBlock c).finallyBlock c)
  | .requestTimer c =>
    if (s.checks c).requestTimer = false then none
    else
      let s := s.modify (some c) fun check => { check with requestTimer := false, aborted := true }
      -- the race is over when the body is being read
      if (s.checks c).phase = .fetching then some ((s.catchBlock c).finallyBlock c) else some s
  | .retryTimer c =>
    if (s.checks c).retryTimer = false then none
    else
      let s := { s.modify (some c) fun check => { check with retryTimer := false } with
        readinessRetryTimerRef := none }
      some (s.check (s.checks c).run ((s.checks c).attempt + 1))

/-! ## What is said of a run -/

/-- The call belongs to the current run. -/
def Current (s : Readiness) (c : ℕ) : Prop := (s.checks c).run = s.readinessRunRef

/-- The request of the call is under way. -/
def Pending (s : Readiness) (c : ℕ) : Prop := (s.checks c).phase ≠ .done

/-- How many requests the current run made. -/
def requests (s : Readiness) : ℕ :=
  ((Finset.range s.calls).filter fun c => (s.checks c).run = s.readinessRunRef).card

/-- The event runs the `finally` block of the call. -/
def Finishes (s : Readiness) (c : ℕ) : ReadinessEvent → Prop
  | .startReadinessCheck | .cancelReadinessCheck | .retryTimer _ => False
  | .fetched d ok => d = c ∧ ok ≠ some true
  | .parsed d _ => d = c
  | .requestTimer d => d = c ∧ (s.checks c).phase = .fetching

/-- The event is one of the call. -/
def Concerns (c : ℕ) : ReadinessEvent → Prop
  | .startReadinessCheck | .cancelReadinessCheck => False
  | .fetched d _ | .parsed d _ | .requestTimer d | .retryTimer d => d = c

/-- A request of an old run settles while the ref holds a request timer. -/
def Disturbs (s : Readiness) (e : ReadinessEvent) : Prop :=
  ∃ c, ¬ s.Current c ∧ s.Finishes c e ∧ s.readinessRequestTimerRef ≠ none

/-! ## The stage of the current run -/

/-- No timer of the call is armed, and its request is not one of the current run that is under
way. -/
structure Quiet (s : Readiness) (d : ℕ) : Prop where
  requestTimer : (s.checks d).requestTimer = false
  retryTimer : (s.checks d).retryTimer = false
  done : s.Current d → (s.checks d).phase = .done

/-- There is no current run, or it is over. -/
structure Ended (s : Readiness) : Prop where
  quiet : ∀ d, s.Quiet d
  abortRef : s.readinessAbortRef = none
  requestRef : s.readinessRequestTimerRef = none
  retryRef : s.readinessRetryTimerRef = none
  requests_le : s.requests ≤ readinessMaxAttempts

/-- The current run waits for the request of the call `c`. -/
structure Requesting (s : Readiness) (c : ℕ) : Prop where
  quiet : ∀ d, d ≠ c → s.Quiet d
  current : s.Current c
  pending : s.Pending c
  retryTimer : (s.checks c).retryTimer = false
  abortRef : s.readinessAbortRef = some c
  retryRef : s.readinessRetryTimerRef = none
  requestRef : s.readinessRequestTimerRef = some c ∨
    s.readinessRequestTimerRef = none ∧ (s.checks c).requestTimer = false
  requests_eq : s.requests = (s.checks c).attempt
  attempt_le : (s.checks c).attempt ≤ readinessMaxAttempts

/-- The current run waits for the retry timer that the call `c` set. -/
structure Waiting (s : Readiness) (c : ℕ) : Prop where
  quiet : ∀ d, d ≠ c → s.Quiet d
  current : s.Current c
  done : ¬ s.Pending c
  requestTimer : (s.checks c).requestTimer = false
  abortRef : s.readinessAbortRef = none
  requestRef : s.readinessRequestTimerRef = none
  retryRef : s.readinessRetryTimerRef = some c
  requests_eq : s.requests = (s.checks c).attempt
  attempt_lt : (s.checks c).attempt < readinessMaxAttempts

/-- **The stages of the current run.** -/
inductive Stage (s : Readiness) : Prop where
  | ended (h : s.Ended)
  | requesting (c : ℕ) (h : s.Requesting c)
  | waiting (c : ℕ) (h : s.Waiting c)

/-- Runs are numbered upwards. -/
structure ReadinessOk (s : Readiness) : Prop where
  run_le : ∀ d, (s.checks d).run ≤ s.readinessRunRef
  stage : s.Stage

variable {s t : Readiness} {c d : ℕ} {e : ReadinessEvent}

@[simp] theorem modify_self (s : Readiness) (c : ℕ) (f : Check → Check) :
    (s.modify (some c) f).checks c = f (s.checks c) := if_pos rfl

theorem modify_of_ne {o : Option ℕ} (f : Check → Check) (h : o ≠ some d) :
    (s.modify o f).checks d = s.checks d := if_neg h

@[simp] theorem modify_none (s : Readiness) (f : Check → Check) : s.modify none f = s := by
  rw [modify]
  simp only [reduceCtorEq, if_false]

/-- A part of the calls that a change leaves alone. -/
theorem modify_apply {β : Type*} {o : Option ℕ} {f : Check → Check} (part : Check → β)
    (h : ∀ check, part (f check) = part check) (s : Readiness) (d : ℕ) :
    part ((s.modify o f).checks d) = part (s.checks d) := by
  unfold modify
  simp only
  split_ifs
  · exact h _
  · rfl

theorem abort_apply {β : Type*} (part : Check → β)
    (h : ∀ check : Check, part { check with aborted := true } = part check) (s : Readiness)
    (d : ℕ) : part (s.abort.checks d) = part (s.checks d) := modify_apply part h s d

theorem clearRequestTimer_apply {β : Type*} (part : Check → β)
    (h : ∀ check : Check, part { check with requestTimer := false } = part check) (s : Readiness)
    (d : ℕ) : part (s.clearRequestTimer.checks d) = part (s.checks d) := modify_apply part h s d

theorem clearRetryTimer_apply {β : Type*} (part : Check → β)
    (h : ∀ check : Check, part { check with retryTimer := false } = part check) (s : Readiness)
    (d : ℕ) : part (s.clearRetryTimer.checks d) = part (s.checks d) := modify_apply part h s d

/-- The number of requests depends on the runs of the calls only. -/
theorem requests_congr (hrun : ∀ d, (t.checks d).run = (s.checks d).run)
    (hcalls : t.calls = s.calls) (hcurrent : t.readinessRunRef = s.readinessRunRef) :
    t.requests = s.requests := by
  simp only [requests, hrun, hcalls, hcurrent]

/-- Before a run number that no call has, the current run made no request. -/
theorem requests_eq_zero (h : ∀ d, (s.checks d).run < s.readinessRunRef) : s.requests = 0 := by
  rw [requests, Finset.card_eq_zero, Finset.filter_eq_empty_iff]
  intro d _
  exact (h d).ne

/-- A call of `check` is one request more. -/
theorem requests_check (s : Readiness) (attempt : ℕ) :
    (s.check s.readinessRunRef attempt).requests = s.requests + 1 := by
  have hbefore : ((Finset.range s.calls).filter fun d =>
      ((s.check s.readinessRunRef attempt).checks d).run = s.readinessRunRef) =
      (Finset.range s.calls).filter fun d => (s.checks d).run = s.readinessRunRef := by
    refine Finset.filter_congr fun d hd => ?_
    have hne : d ≠ s.calls := (Finset.mem_range.mp hd).ne
    rw [check]
    simp only [Function.update_of_ne hne]
  have hnew : ((s.check s.readinessRunRef attempt).checks s.calls).run = s.readinessRunRef := by
    rw [check]
    simp only [Function.update_self]
  show ((Finset.range (s.calls + 1)).filter fun d =>
    ((s.check s.readinessRunRef attempt).checks d).run = s.readinessRunRef).card = _
  rw [Finset.range_add_one, Finset.filter_insert, if_pos hnew, Finset.card_insert_of_notMem, hbefore,
    requests]
  rw [hbefore, Finset.mem_filter, Finset.mem_range]
  exact fun h => lt_irrefl _ h.1

/-! ## Timers and refs -/

/-- A call that is not quiet is that of the stage. -/
theorem Stage.of_not_quiet (h : s.Stage) (hquiet : ¬ s.Quiet c) : s.Requesting c ∨ s.Waiting c := by
  cases h with
  | ended h => exact absurd (h.quiet c) hquiet
  | requesting d h =>
    obtain rfl : c = d := by_contra fun hne => hquiet (h.quiet c hne)
    exact .inl h
  | waiting d h =>
    obtain rfl : c = d := by_contra fun hne => hquiet (h.quiet c hne)
    exact .inr h

/-- A request of the current run that is under way is the one of its stage. -/
theorem Stage.of_pending (h : s.Stage) (hcurrent : s.Current c) (hpending : s.Pending c) :
    s.Requesting c := by
  have hquiet : ¬ s.Quiet c := fun hq => hpending (hq.done hcurrent)
  exact (h.of_not_quiet hquiet).resolve_right fun hwaiting => hwaiting.done hpending

/-- So is one whose timer is armed. -/
theorem Stage.of_requestTimer (h : s.Stage) (hc : (s.checks c).requestTimer = true) :
    s.Requesting c := by
  have hquiet : ¬ s.Quiet c := fun hq =>
    absurd (hq.requestTimer.symm.trans hc) Bool.false_ne_true
  refine (h.of_not_quiet hquiet).resolve_right fun hwaiting => ?_
  exact absurd (hwaiting.requestTimer.symm.trans hc) Bool.false_ne_true

/-- An armed retry timer is that of the stage. -/
theorem Stage.of_retryTimer (h : s.Stage) (hc : (s.checks c).retryTimer = true) :
    s.Waiting c := by
  have hquiet : ¬ s.Quiet c := fun hq => absurd (hq.retryTimer.symm.trans hc) Bool.false_ne_true
  refine (h.of_not_quiet hquiet).resolve_left fun hrequesting => ?_
  exact absurd (hrequesting.retryTimer.symm.trans hc) Bool.false_ne_true

/-- An armed request timer is the one in the ref. -/
theorem Stage.requestTimer_ref (h : s.Stage) (hd : (s.checks d).requestTimer = true) :
    s.readinessRequestTimerRef = some d :=
  (h.of_requestTimer hd).requestRef.resolve_right fun hnone =>
    absurd (hnone.2.symm.trans hd) Bool.false_ne_true

/-- The controller in the ref is that of the request under way. -/
theorem Stage.of_abortRef (h : s.Stage) (href : s.readinessAbortRef = some c) :
    s.Requesting c := by
  cases h with
  | ended h => exact absurd (h.abortRef.symm.trans href) (Option.some_ne_none c).symm
  | requesting d h =>
    obtain rfl := Option.some.inj (h.abortRef.symm.trans href)
    exact h
  | waiting d h => exact absurd (h.abortRef.symm.trans href) (Option.some_ne_none c).symm

/-- A request that is being fetched or read is under way. -/
theorem pending_of_phase {phase : Phase} (h : ¬ (s.checks c).phase ≠ phase)
    (hphase : phase ≠ .done) : s.Pending c := by
  rw [Pending, not_not.mp h]
  exact hphase

/-- A timer that is armed only if it is in the ref is cleared. -/
theorem requestTimer_clear (h : (s.checks d).requestTimer = true →
    s.readinessRequestTimerRef = some d) : (s.clearRequestTimer.checks d).requestTimer = false := by
  rw [clearRequestTimer]
  by_cases href : s.readinessRequestTimerRef = some d
  · rw [href]
    simp only [modify_self]
  · simp only [modify_of_ne _ href]
    exact Bool.eq_false_iff.mpr (mt h href)

theorem retryTimer_clear (h : (s.checks d).retryTimer = true →
    s.readinessRetryTimerRef = some d) : (s.clearRetryTimer.checks d).retryTimer = false := by
  rw [clearRetryTimer]
  by_cases href : s.readinessRetryTimerRef = some d
  · rw [href]
    simp only [modify_self]
  · simp only [modify_of_ne _ href]
    exact Bool.eq_false_iff.mpr (mt h href)

/-- Behind a cancellation no timer is armed. -/
theorem Stage.cancelled (h : s.Stage) (d : ℕ) :
    (s.cancelReadinessCheck.checks d).requestTimer = false ∧
      (s.cancelReadinessCheck.checks d).retryTimer = false := by
  rw [cancelReadinessCheck, clearReadinessTimers]
  constructor
  · refine (clearRetryTimer_apply Check.requestTimer (fun _ => rfl) _ d).trans ?_
    refine requestTimer_clear fun hd => h.requestTimer_ref ?_
    exact (abort_apply Check.requestTimer (fun _ => rfl) _ d).symm.trans hd
  · refine retryTimer_clear fun hd => (h.of_retryTimer ?_).retryRef
    rw [clearRequestTimer_apply Check.retryTimer fun _ => rfl] at hd
    exact (abort_apply Check.retryTimer (fun _ => rfl) _ d).symm.trans hd

/-! ## Starting and cancelling -/

/-- Every run is older behind a cancellation. -/
theorem ReadinessOk.run_lt_cancelled (h : s.ReadinessOk) (d : ℕ) :
    (s.cancelReadinessCheck.checks d).run < s.cancelReadinessCheck.readinessRunRef := by
  have hrun : (s.cancelReadinessCheck.checks d).run = (s.checks d).run := by
    rw [cancelReadinessCheck, clearReadinessTimers, clearRetryTimer_apply Check.run (fun _ => rfl),
      clearRequestTimer_apply Check.run fun _ => rfl, abort_apply Check.run fun _ => rfl]
  rw [hrun]
  exact Nat.lt_succ_of_le (h.run_le d)

theorem ReadinessOk.cancelReadinessCheck (h : s.ReadinessOk) :
    s.cancelReadinessCheck.ReadinessOk := by
  have hlt := h.run_lt_cancelled
  refine ⟨fun d => (hlt d).le, .ended ⟨fun d => ?_, rfl, rfl, rfl, ?_⟩⟩
  · obtain ⟨hrequest, hretry⟩ := h.stage.cancelled d
    exact ⟨hrequest, hretry, fun hcurrent => absurd hcurrent (hlt d).ne⟩
  · rw [requests_eq_zero hlt]
    exact Nat.zero_le _

/-- The next attempt of the current run. -/
theorem stage_check {attempt : ℕ} (hquiet : ∀ d, s.Quiet d)
    (hretry : s.readinessRetryTimerRef = none) (hrequests : s.requests + 1 = attempt)
    (hattempt : attempt ≤ readinessMaxAttempts) : (s.check s.readinessRunRef attempt).Stage := by
  have hnew : (s.check s.readinessRunRef attempt).checks s.calls =
      ⟨s.readinessRunRef, attempt, .fetching, false, true, false⟩ := Function.update_self ..
  refine .requesting s.calls ⟨fun d hd => ?_, congrArg Check.run hnew, ?_,
    congrArg Check.retryTimer hnew, rfl, hretry, .inl rfl, ?_, ?_⟩
  · have hold : (s.check s.readinessRunRef attempt).checks d = s.checks d :=
      Function.update_of_ne hd ..
    refine ⟨?_, ?_, fun hcurrent => ?_⟩
    · rw [hold]
      exact (hquiet d).requestTimer
    · rw [hold]
      exact (hquiet d).retryTimer
    · rw [Current, hold] at hcurrent
      rw [hold]
      exact (hquiet d).done hcurrent
  · rw [Pending, hnew]
    exact Phase.noConfusion
  · rw [requests_check, hrequests, hnew]
  · rw [hnew]
    exact hattempt

theorem ReadinessOk.check {attempt : ℕ} (hrun : ∀ d, (s.checks d).run ≤ s.readinessRunRef)
    (hquiet : ∀ d, s.Quiet d) (hretry : s.readinessRetryTimerRef = none)
    (hrequests : s.requests + 1 = attempt) (hattempt : attempt ≤ readinessMaxAttempts) :
    (s.check s.readinessRunRef attempt).ReadinessOk := by
  refine ⟨fun d => ?_, stage_check hquiet hretry hrequests hattempt⟩
  show (Function.update s.checks s.calls _ d).run ≤ s.readinessRunRef
  rcases eq_or_ne d s.calls with rfl | hd
  · rw [Function.update_self]
  · rw [Function.update_of_ne hd]
    exact hrun d

theorem ReadinessOk.startReadinessCheck (h : s.ReadinessOk) :
    s.startReadinessCheck.ReadinessOk := by
  have hlt := h.run_lt_cancelled
  have hquiet : ∀ d, s.cancelReadinessCheck.Quiet d := by
    intro d
    obtain ⟨hrequest, hretry⟩ := h.stage.cancelled d
    exact ⟨hrequest, hretry, fun hcurrent => absurd hcurrent (hlt d).ne⟩
  have hrequests : s.cancelReadinessCheck.requests = 0 := requests_eq_zero hlt
  exact ReadinessOk.check
    (s := { s.cancelReadinessCheck with
      backendReadiness := .checking, health := none, healthError := "" })
    (fun d => (hlt d).le) (fun d => ⟨(hquiet d).requestTimer, (hquiet d).retryTimer,
      (hquiet d).done⟩) rfl (congrArg (· + 1) hrequests) (by decide)

/-! ## The end of a request -/

/-- What the `finally` block leaves of the calls. -/
theorem finallyBlock_checks (s : Readiness) (c : ℕ) :
    (s.finallyBlock c).checks = (s.clearRequestTimer.modify (some c)
      fun check => { check with phase := .done }).checks := by
  unfold finallyBlock
  by_cases h : s.clearRequestTimer.readinessAbortRef = some c
  · simp only [if_pos h]
    rfl
  · simp only [if_neg h]

/-- The `finally` block changes no part of a call but its phase and its request timer. -/
theorem finallyBlock_apply {β : Type*} (part : Check → β)
    (hphase : ∀ check : Check, part { check with phase := .done } = part check)
    (htimer : ∀ check : Check, part { check with requestTimer := false } = part check) (d : ℕ) :
    part ((s.finallyBlock c).checks d) = part (s.checks d) := by
  rw [finallyBlock_checks, modify_apply part hphase]
  exact clearRequestTimer_apply part htimer s d

theorem requestTimer_finallyBlock
    (h : (s.checks d).requestTimer = true → s.readinessRequestTimerRef = some d) :
    ((s.finallyBlock c).checks d).requestTimer = false := by
  rw [finallyBlock_checks]
  exact (modify_apply (f := fun check => { check with phase := .done }) Check.requestTimer
    (fun _ => rfl) s.clearRequestTimer d).trans (requestTimer_clear h)

theorem phase_finallyBlock_self : ((s.finallyBlock c).checks c).phase = .done := by
  rw [finallyBlock_checks, modify_self]

theorem phase_finallyBlock_of_ne (hne : d ≠ c) :
    ((s.finallyBlock c).checks d).phase = (s.checks d).phase := by
  rw [finallyBlock_checks, modify_of_ne _ fun h => hne (Option.some.inj h).symm]
  exact clearRequestTimer_apply Check.phase (fun _ => rfl) s d

theorem run_finallyBlock : ((s.finallyBlock c).checks d).run = (s.checks d).run :=
  finallyBlock_apply Check.run (fun _ => rfl) (fun _ => rfl) d

theorem attempt_finallyBlock : ((s.finallyBlock c).checks d).attempt = (s.checks d).attempt :=
  finallyBlock_apply Check.attempt (fun _ => rfl) (fun _ => rfl) d

theorem retryTimer_finallyBlock :
    ((s.finallyBlock c).checks d).retryTimer = (s.checks d).retryTimer :=
  finallyBlock_apply Check.retryTimer (fun _ => rfl) (fun _ => rfl) d

/-- What the `finally` block leaves of the refs and of the page. -/
theorem finallyBlock_refs (s : Readiness) (c : ℕ) :
    (s.finallyBlock c).readinessRunRef = s.readinessRunRef ∧
      (s.finallyBlock c).readinessRequestTimerRef = none ∧
      (s.finallyBlock c).readinessRetryTimerRef = s.readinessRetryTimerRef ∧
      (s.finallyBlock c).backendReadiness = s.backendReadiness ∧
      (s.finallyBlock c).health = s.health ∧ (s.finallyBlock c).calls = s.calls ∧
      (s.finallyBlock c).readinessAbortRef =
        if s.readinessAbortRef = some c then none else s.readinessAbortRef := by
  unfold finallyBlock
  have habort : s.clearRequestTimer.readinessAbortRef = s.readinessAbortRef := rfl
  simp only [habort]
  split_ifs <;> exact ⟨rfl, rfl, rfl, rfl, rfl, rfl, rfl⟩

theorem requests_finallyBlock : (s.finallyBlock c).requests = s.requests := by
  obtain ⟨hrun, -, -, -, -, hcalls, -⟩ := finallyBlock_refs s c
  exact requests_congr (fun d => run_finallyBlock) hcalls hrun

theorem Quiet.finallyBlock (h : s.Quiet d) : (s.finallyBlock c).Quiet d := by
  refine ⟨requestTimer_finallyBlock fun hd => ?_, retryTimer_finallyBlock.trans h.retryTimer,
    fun hcurrent => ?_⟩
  · exact absurd (h.requestTimer.symm.trans hd) Bool.false_ne_true
  · rw [Current, run_finallyBlock, (finallyBlock_refs s c).1] at hcurrent
    rcases eq_or_ne d c with rfl | hne
    · exact phase_finallyBlock_self
    · rw [phase_finallyBlock_of_ne hne]
      exact h.done hcurrent

/-- What an event must keep so that the current run stays at its stage.  It may clear the request
timer, which then nothing is left of. -/
structure KeepsStage (s t : Readiness) : Prop where
  quiet : ∀ d, s.Quiet d → t.Quiet d
  current : ∀ d, s.Current d → t.Current d
  phase : ∀ d, s.Current d → (t.checks d).phase = (s.checks d).phase
  retryTimer : ∀ d, s.Current d → (t.checks d).retryTimer = (s.checks d).retryTimer
  attempt : ∀ d, s.Current d → (t.checks d).attempt = (s.checks d).attempt
  abortRef : t.readinessAbortRef = s.readinessAbortRef
  retryRef : t.readinessRetryTimerRef = s.readinessRetryTimerRef
  requests : t.requests = s.requests
  request : (t.readinessRequestTimerRef = none ∧ ∀ d, (t.checks d).requestTimer = false) ∨
    (t.readinessRequestTimerRef = s.readinessRequestTimerRef ∧
      ∀ d, s.Current d → (t.checks d).requestTimer = (s.checks d).requestTimer)

theorem KeepsStage.stage (hkeeps : KeepsStage s t) (h : s.Stage) : t.Stage := by
  have hpending : ∀ {d}, s.Current d → (t.Pending d ↔ s.Pending d) := fun {d} hd => by
    rw [Pending, Pending, hkeeps.phase d hd]
  cases h with
  | ended h =>
    refine .ended ⟨fun d => hkeeps.quiet d (h.quiet d), hkeeps.abortRef.trans h.abortRef, ?_,
      hkeeps.retryRef.trans h.retryRef, hkeeps.requests.trans_le h.requests_le⟩
    exact hkeeps.request.elim And.left fun hsame => hsame.1.trans h.requestRef
  | requesting x h =>
    refine .requesting x ⟨fun d hd => hkeeps.quiet d (h.quiet d hd), hkeeps.current x h.current,
      (hpending h.current).mpr h.pending, (hkeeps.retryTimer x h.current).trans h.retryTimer,
      hkeeps.abortRef.trans h.abortRef, hkeeps.retryRef.trans h.retryRef, ?_, ?_, ?_⟩
    · rcases hkeeps.request with ⟨hnone, hcleared⟩ | ⟨hsame, htimer⟩
      · exact .inr ⟨hnone, hcleared x⟩
      · rw [hsame, htimer x h.current]
        exact h.requestRef
    · rw [hkeeps.requests, hkeeps.attempt x h.current, h.requests_eq]
    · rw [hkeeps.attempt x h.current]
      exact h.attempt_le
  | waiting x h =>
    refine .waiting x ⟨fun d hd => hkeeps.quiet d (h.quiet d hd), hkeeps.current x h.current,
      mt (hpending h.current).mp h.done, ?_, hkeeps.abortRef.trans h.abortRef, ?_,
      hkeeps.retryRef.trans h.retryRef, ?_, ?_⟩
    · exact hkeeps.request.elim (fun hcleared => hcleared.2 x) fun hsame =>
        (hsame.2 x h.current).trans h.requestTimer
    · exact hkeeps.request.elim And.left fun hsame => hsame.1.trans h.requestRef
    · rw [hkeeps.requests, hkeeps.attempt x h.current, h.requests_eq]
    · rw [hkeeps.attempt x h.current]
      exact h.attempt_lt

/-- The end of an old request. -/
theorem Stage.finallyBlock_old (h : s.Stage) (hold : ¬ s.Current c) : (s.finallyBlock c).Stage := by
  obtain ⟨hrun, hrequest, hretry, -, -, -, habort⟩ := finallyBlock_refs s c
  have habort' : (s.finallyBlock c).readinessAbortRef = s.readinessAbortRef := by
    rw [habort, if_neg fun href => hold (h.of_abortRef href).current]
  refine KeepsStage.stage ⟨fun d hd => hd.finallyBlock, fun d hd => ?_, fun d hd => ?_,
    fun d _ => retryTimer_finallyBlock, fun d _ => attempt_finallyBlock, habort', hretry,
    requests_finallyBlock,
    .inl ⟨hrequest, fun d => requestTimer_finallyBlock h.requestTimer_ref⟩⟩ h
  · rw [Current, run_finallyBlock, hrun]
    exact hd
  · refine phase_finallyBlock_of_ne ?_
    rintro rfl
    exact hold hd

/-- The end of the last request of the current run. -/
theorem Requesting.finallyBlock (h : s.Requesting c) : (s.finallyBlock c).Ended := by
  obtain ⟨hrun, hrequest, hretry, -, -, -, habort⟩ := finallyBlock_refs s c
  refine ⟨fun d => ?_, habort.trans (if_pos h.abortRef), hrequest, hretry.trans h.retryRef, ?_⟩
  · rcases eq_or_ne d c with rfl | hne
    · exact ⟨requestTimer_finallyBlock (Stage.requesting d h).requestTimer_ref,
        retryTimer_finallyBlock.trans h.retryTimer, fun _ => phase_finallyBlock_self⟩
    · exact (h.quiet d hne).finallyBlock
  · rw [requests_finallyBlock, h.requests_eq]
    exact h.attempt_le

/-- What the page shows is no part of a stage. -/
theorem Requesting.page (h : s.Requesting c) (health : Option Json) (b : BackendReadiness) :
    Requesting { s with health := health, backendReadiness := b } c :=
  ⟨fun d hd => ⟨(h.quiet d hd).requestTimer, (h.quiet d hd).retryTimer, (h.quiet d hd).done⟩,
    h.current, h.pending, h.retryTimer, h.abortRef, h.retryRef, h.requestRef, h.requests_eq,
    h.attempt_le⟩

theorem Quiet.modify (h : s.Quiet d) (f : Check → Check) (hne : d ≠ c) :
    (s.modify (some c) f).Quiet d := by
  have hold : (s.modify (some c) f).checks d = s.checks d :=
    modify_of_ne f fun heq => hne (Option.some.inj heq).symm
  refine ⟨?_, ?_, fun hcurrent => ?_⟩
  · rw [hold]
    exact h.requestTimer
  · rw [hold]
    exact h.retryTimer
  · rw [Current, hold] at hcurrent
    rw [hold]
    exact h.done hcurrent

/-- The end of a request that sets the retry timer. -/
theorem Requesting.retry (h : s.Requesting c) (hlt : (s.checks c).attempt < readinessMaxAttempts) :
    (Readiness.finallyBlock { s.modify (some c) fun check => { check with retryTimer := true } with
      readinessRetryTimerRef := some c } c).Waiting c := by
  set u : Readiness := { s.modify (some c) fun check => { check with retryTimer := true } with
    readinessRetryTimerRef := some c } with hu
  have hself : u.checks c = { s.checks c with retryTimer := true } := if_pos rfl
  have hruns : ∀ d, (u.checks d).run = (s.checks d).run :=
    modify_apply (f := fun check => { check with retryTimer := true }) Check.run (fun _ => rfl) s
  obtain ⟨hrun, hrequest, hretry, -, -, -, habort⟩ := finallyBlock_refs u c
  have hrequests : (u.finallyBlock c).requests = (s.checks c).attempt :=
    requests_finallyBlock.trans ((requests_congr hruns rfl rfl).trans h.requests_eq)
  have hattempt : ((u.finallyBlock c).checks c).attempt = (s.checks c).attempt := by
    rw [attempt_finallyBlock, hself]
  refine ⟨fun d hd => ?_, ?_, fun hpending => hpending phase_finallyBlock_self, ?_,
    habort.trans (if_pos h.abortRef), hrequest, hretry, hrequests.trans hattempt.symm,
    hattempt.trans_lt hlt⟩
  · have hquiet := (h.quiet d hd).modify (fun check => { check with retryTimer := true }) hd
    have hquiet' : u.Quiet d := ⟨hquiet.requestTimer, hquiet.retryTimer, hquiet.done⟩
    exact hquiet'.finallyBlock
  · rw [Current, run_finallyBlock, hrun, hself]
    exact h.current
  · refine requestTimer_finallyBlock fun htimer => ?_
    rw [hself] at htimer
    exact (Stage.requesting c h).requestTimer_ref htimer

/-! ## The steps -/

theorem ReadinessOk.finallyBlock_old (h : s.ReadinessOk) (hold : ¬ s.Current c) :
    (s.finallyBlock c).ReadinessOk := by
  refine ⟨fun d => ?_, h.stage.finallyBlock_old hold⟩
  rw [run_finallyBlock, (finallyBlock_refs s c).1]
  exact h.run_le d

/-- The `catch` and the `finally` block, whatever the run. -/
theorem ReadinessOk.catchBlock (h : s.ReadinessOk) (hpending : s.Pending c) :
    ((s.catchBlock c).finallyBlock c).ReadinessOk := by
  unfold Readiness.catchBlock
  split_ifs with hold hlast
  · exact h.finallyBlock_old fun hcurrent => hold hcurrent.symm
  · have hrequesting := h.stage.of_pending (not_not.mp hold).symm hpending
    refine ⟨fun d => ?_, .ended (hrequesting.page none .failed).finallyBlock⟩
    rw [run_finallyBlock, (finallyBlock_refs _ c).1]
    exact h.run_le d
  · have hrequesting := h.stage.of_pending (not_not.mp hold).symm hpending
    refine ⟨fun d => ?_, .waiting c (hrequesting.retry (not_le.mp hlast))⟩
    rw [run_finallyBlock, (finallyBlock_refs _ c).1]
    exact (modify_apply (f := fun check => { check with retryTimer := true }) Check.run
      (fun _ => rfl) s d).trans_le (h.run_le d)

/-- The end of the `try` block and the `finally` block, whatever the run. -/
theorem ReadinessOk.becomeReady (h : s.ReadinessOk) (hpending : s.Pending c) (nextHealth : Json) :
    ((s.becomeReady c nextHealth).finallyBlock c).ReadinessOk := by
  unfold Readiness.becomeReady
  split_ifs with hold
  · exact h.finallyBlock_old fun hcurrent => hold hcurrent.symm
  · have hrequesting := h.stage.of_pending (not_not.mp hold).symm hpending
    refine ⟨fun d => ?_, .ended (hrequesting.page (some nextHealth) .ready).finallyBlock⟩
    rw [run_finallyBlock, (finallyBlock_refs _ c).1]
    exact h.run_le d

/-- An old call changes. -/
theorem Stage.modify_old (h : s.Stage) {f : Check → Check}
    (hrun : ∀ check, (f check).run = check.run)
    (hretry : ∀ check, (f check).retryTimer = check.retryTimer)
    (htimer : ∀ check, check.requestTimer = false → (f check).requestTimer = false)
    (hold : ¬ s.Current c) : (s.modify (some c) f).Stage := by
  have hself : (s.modify (some c) f).checks c = f (s.checks c) := modify_self s c f
  have hsame : ∀ d, s.Current d → (s.modify (some c) f).checks d = s.checks d := by
    intro d hd
    refine modify_of_ne f fun heq => hold ?_
    rw [Option.some.inj heq]
    exact hd
  refine KeepsStage.stage ⟨fun d hd => ?_, fun d hd => ?_,
    fun d hd => congrArg Check.phase (hsame d hd),
    fun d hd => congrArg Check.retryTimer (hsame d hd),
    fun d hd => congrArg Check.attempt (hsame d hd), rfl, rfl,
    requests_congr (modify_apply Check.run hrun s) rfl rfl,
    .inr ⟨rfl, fun d hd => congrArg Check.requestTimer (hsame d hd)⟩⟩ h
  · rcases eq_or_ne d c with rfl | hne
    · refine ⟨?_, ?_, fun hcurrent => absurd ?_ hold⟩
      · rw [hself]
        exact htimer _ hd.requestTimer
      · rw [hself, hretry]
        exact hd.retryTimer
      · rw [Current, hself, hrun] at hcurrent
        exact hcurrent
    · exact hd.modify f hne
  · rw [Current, hsame d hd]
    exact hd

/-- A call whose request goes on: its run, its attempt and its retry timer stay, and it is still
under way. -/
theorem ReadinessOk.modify (h : s.ReadinessOk) {f : Check → Check}
    (hrun : ∀ check, (f check).run = check.run)
    (hattempt : ∀ check, (f check).attempt = check.attempt)
    (hretry : ∀ check, (f check).retryTimer = check.retryTimer)
    (htimer : ∀ check, check.requestTimer = false → (f check).requestTimer = false)
    (hpending : s.Pending c) (hpending' : (f (s.checks c)).phase ≠ .done) :
    (s.modify (some c) f).ReadinessOk := by
  have hself : (s.modify (some c) f).checks c = f (s.checks c) := modify_self s c f
  refine ⟨fun d => (congrArg (· ≤ _) (modify_apply Check.run hrun s d)).mpr (h.run_le d), ?_⟩
  by_cases hcurrent : s.Current c
  · have hc := h.stage.of_pending hcurrent hpending
    refine .requesting c ⟨fun d hd => (hc.quiet d hd).modify f hd, ?_, ?_, ?_, hc.abortRef,
      hc.retryRef, hc.requestRef.imp_right fun hnone => ⟨hnone.1, ?_⟩, ?_, ?_⟩
    · rw [Current, hself, hrun]
      exact hcurrent
    · rw [Pending, hself]
      exact hpending'
    · rw [hself, hretry]
      exact hc.retryTimer
    · rw [hself]
      exact htimer _ hnone.2
    · rw [requests_congr (modify_apply Check.run hrun s) rfl rfl, hself, hattempt]
      exact hc.requests_eq
    · rw [hself, hattempt]
      exact hc.attempt_le
  · exact h.stage.modify_old hrun hretry htimer hcurrent

/-- The retry timer fires. -/
theorem ReadinessOk.retryTimer (h : s.ReadinessOk) (hc : (s.checks c).retryTimer = true) :
    (Readiness.check { s.modify (some c) fun check => { check with retryTimer := false } with
      readinessRetryTimerRef := none } (s.checks c).run ((s.checks c).attempt + 1)).ReadinessOk := by
  have hwaiting := h.stage.of_retryTimer hc
  set u : Readiness := { s.modify (some c) fun check => { check with retryTimer := false } with
    readinessRetryTimerRef := none } with hu
  have hself : u.checks c = { s.checks c with retryTimer := false } := if_pos rfl
  have hruns : ∀ d, (u.checks d).run = (s.checks d).run :=
    modify_apply (f := fun check => { check with retryTimer := false }) Check.run (fun _ => rfl) s
  have hquiet : ∀ d, u.Quiet d := by
    intro d
    rcases eq_or_ne d c with rfl | hne
    · refine ⟨?_, ?_, fun _ => ?_⟩
      · rw [hself]
        exact hwaiting.requestTimer
      · rw [hself]
      · rw [hself]
        exact not_not.mp hwaiting.done
    · have hd := (hwaiting.quiet d hne).modify (fun check => { check with retryTimer := false }) hne
      exact ⟨hd.requestTimer, hd.retryTimer, hd.done⟩
  have hrequests : u.requests = (s.checks c).attempt :=
    (requests_congr hruns rfl rfl).trans hwaiting.requests_eq
  have hcurrent : (s.checks c).run = u.readinessRunRef := hwaiting.current
  rw [hcurrent]
  exact ReadinessOk.check (fun d => (hruns d).trans_le (h.run_le d)) hquiet rfl
    (congrArg (· + 1) hrequests) hwaiting.attempt_lt

theorem readinessOk_initial : initial.ReadinessOk :=
  ⟨fun _ => le_rfl, .ended ⟨fun _ => ⟨rfl, rfl, fun _ => rfl⟩, rfl, rfl, rfl, Nat.zero_le _⟩⟩

theorem ReadinessOk.step (h : s.ReadinessOk) (hstep : s.step e = some t) : t.ReadinessOk := by
  cases e with
  | startReadinessCheck =>
    obtain rfl := Option.some.inj hstep
    exact h.startReadinessCheck
  | cancelReadinessCheck =>
    obtain rfl := Option.some.inj hstep
    exact h.cancelReadinessCheck
  | fetched c ok =>
    rw [Readiness.step] at hstep
    split_ifs at hstep with hphase hok
    · obtain rfl := Option.some.inj hstep
      have hpending : s.Pending c := pending_of_phase hphase Phase.noConfusion
      exact h.modify (fun _ => rfl) (fun _ => rfl) (fun _ => rfl) (fun _ => id) hpending
        Phase.noConfusion
    · obtain rfl := Option.some.inj hstep
      exact h.catchBlock (pending_of_phase hphase Phase.noConfusion)
  | parsed c body =>
    rw [Readiness.step] at hstep
    split_ifs at hstep with hphase
    have hpending : s.Pending c := pending_of_phase hphase Phase.noConfusion
    cases hbody : body.filter isHealth with
    | some nextHealth =>
      rw [hbody] at hstep
      obtain rfl := Option.some.inj hstep
      exact h.becomeReady hpending nextHealth
    | none =>
      rw [hbody] at hstep
      obtain rfl := Option.some.inj hstep
      exact h.catchBlock hpending
  | requestTimer c =>
    rw [Readiness.step] at hstep
    split_ifs at hstep with harmed
    have hpending := (h.stage.of_requestTimer (Bool.eq_true_of_not_eq_false harmed)).pending
    have hfired := h.modify
      (f := fun check => { check with requestTimer := false, aborted := true }) (fun _ => rfl)
      (fun _ => rfl) (fun _ => rfl) (fun _ _ => rfl) hpending hpending
    simp only at hstep
    split_ifs at hstep with hphase
    · obtain rfl := Option.some.inj hstep
      refine hfired.catchBlock ?_
      rw [Pending, modify_self]
      exact hpending
    · obtain rfl := Option.some.inj hstep
      exact hfired
  | retryTimer c =>
    rw [Readiness.step] at hstep
    split_ifs at hstep with harmed
    obtain rfl := Option.some.inj hstep
    have hnext := h.retryTimer (Bool.eq_true_of_not_eq_false harmed)
    have hself : (s.modify (some c) fun check => { check with retryTimer := false }).checks c =
        { s.checks c with retryTimer := false } := modify_self ..
    simpa only [hself] using hnext

/-! ## Old runs -/

/-- The event is one of a call of an old run. -/
def OfOldRun (s : Readiness) (e : ReadinessEvent) : Prop := ∃ c, Concerns c e ∧ ¬ s.Current c

/-- Nothing happens to the page and to the current run, its request timer apart. -/
structure Spares (s t : Readiness) : Prop where
  health : t.health = s.health
  backendReadiness : t.backendReadiness = s.backendReadiness
  run : t.readinessRunRef = s.readinessRunRef
  abortRef : t.readinessAbortRef = s.readinessAbortRef
  retryRef : t.readinessRetryTimerRef = s.readinessRetryTimerRef
  phase : ∀ d, s.Current d → (t.checks d).phase = (s.checks d).phase
  aborted : ∀ d, s.Current d → (t.checks d).aborted = (s.checks d).aborted
  retryTimer : ∀ d, s.Current d → (t.checks d).retryTimer = (s.checks d).retryTimer

/-- Nothing happens to the request timers. -/
def KeepsRequestTimer (s t : Readiness) : Prop :=
  t.readinessRequestTimerRef = s.readinessRequestTimerRef ∧
    ∀ d, (t.checks d).requestTimer = (s.checks d).requestTimer

/-- An event of an old run lets its call go on, or ends it. -/
theorem ReadinessOk.step_old (h : s.ReadinessOk) (hstep : s.step e = some t) (hold : s.OfOldRun e) :
    ∃ c, ¬ s.Current c ∧
      (t = (s.modify (some c) fun check => { check with phase := .reading }) ∧
          (∀ d, ¬ s.Finishes d e) ∨
        t = s.finallyBlock c ∧ ∀ d, s.Finishes d e ↔ d = c) := by
  obtain ⟨c, hc, hcurrent⟩ := hold
  have hne : s.readinessRunRef ≠ (s.checks c).run := fun heq => hcurrent heq.symm
  have hcatch : s.catchBlock c = s := if_pos hne
  refine ⟨c, hcurrent, ?_⟩
  cases e with
  | startReadinessCheck => exact hc.elim
  | cancelReadinessCheck => exact hc.elim
  | fetched d ok =>
    obtain rfl : d = c := hc
    rw [Readiness.step] at hstep
    split_ifs at hstep with hphase hok
    · exact .inl ⟨(Option.some.inj hstep).symm, fun x hx => hx.2 hok⟩
    · rw [hcatch] at hstep
      exact .inr ⟨(Option.some.inj hstep).symm, fun x => ⟨fun hx => hx.1.symm, fun hx =>
        ⟨hx.symm, hok⟩⟩⟩
  | parsed d body =>
    obtain rfl : d = c := hc
    rw [Readiness.step] at hstep
    split_ifs at hstep with hphase
    refine .inr ⟨?_, fun x => eq_comm⟩
    cases hbody : body.filter isHealth with
    | some nextHealth =>
      have hready : s.becomeReady d nextHealth = s := if_pos hne
      rw [hbody] at hstep
      simp only [hready] at hstep
      exact (Option.some.inj hstep).symm
    | none =>
      rw [hbody] at hstep
      simp only [hcatch] at hstep
      exact (Option.some.inj hstep).symm
  | requestTimer d =>
    obtain rfl : d = c := hc
    rw [Readiness.step] at hstep
    split_ifs at hstep with harmed
    exact absurd (h.stage.of_requestTimer (Bool.eq_true_of_not_eq_false harmed)).current hcurrent
  | retryTimer d =>
    obtain rfl : d = c := hc
    rw [Readiness.step] at hstep
    split_ifs at hstep with harmed
    exact absurd (h.stage.of_retryTimer (Bool.eq_true_of_not_eq_false harmed)).current hcurrent

/-- An old run spares the page and the current run. -/
theorem ReadinessOk.spares (h : s.ReadinessOk) (hstep : s.step e = some t) (hold : s.OfOldRun e) :
    s.Spares t := by
  obtain ⟨c, hcurrent, ⟨rfl, -⟩ | ⟨rfl, -⟩⟩ := h.step_old hstep hold
  · refine ⟨rfl, rfl, rfl, rfl, rfl, fun d hd => ?_, fun d _ => ?_, fun d _ => ?_⟩
    · rw [modify_of_ne]
      intro heq
      rw [Option.some.inj heq] at hcurrent
      exact hcurrent hd
    · exact modify_apply (f := fun check => { check with phase := .reading }) Check.aborted
        (fun _ => rfl) s d
    · exact modify_apply (f := fun check => { check with phase := .reading }) Check.retryTimer
        (fun _ => rfl) s d
  · obtain ⟨hrun, -, hretry, hready, hhealth, -, habort⟩ := finallyBlock_refs s c
    refine ⟨hhealth, hready, hrun, ?_, hretry, fun d hd => ?_,
      fun d _ => finallyBlock_apply Check.aborted (fun _ => rfl) (fun _ => rfl) d,
      fun d _ => retryTimer_finallyBlock⟩
    · rw [habort, if_neg fun href => hcurrent (h.stage.of_abortRef href).current]
    · refine phase_finallyBlock_of_ne ?_
      rintro rfl
      exact hcurrent hd

/-- An old run leaves the request timers alone if and only if it does not end while the ref holds
one. -/
theorem ReadinessOk.keepsRequestTimer_iff (h : s.ReadinessOk) (hstep : s.step e = some t)
    (hold : s.OfOldRun e) : s.KeepsRequestTimer t ↔ ¬ s.Disturbs e := by
  obtain ⟨c, hcurrent, ⟨rfl, hfinishes⟩ | ⟨rfl, hfinishes⟩⟩ := h.step_old hstep hold
  · refine iff_of_true ⟨rfl, modify_apply (f := fun check => { check with phase := .reading })
      Check.requestTimer (fun _ => rfl) s⟩ ?_
    rintro ⟨d, -, hd, -⟩
    exact hfinishes d hd
  · have hrequest := (finallyBlock_refs s c).2.1
    constructor
    · rintro ⟨href, -⟩ ⟨d, -, -, hne⟩
      exact hne (href.symm.trans hrequest)
    · intro hspares
      have hnone : s.readinessRequestTimerRef = none := by
        by_contra hne
        exact hspares ⟨c, hcurrent, (hfinishes c).mpr rfl, hne⟩
      have hquiet : ∀ d, (s.checks d).requestTimer = false := by
        intro d
        refine Bool.eq_false_iff.mpr fun hd => ?_
        exact absurd (hnone.symm.trans (h.stage.requestTimer_ref hd)) (Option.some_ne_none d).symm
      refine ⟨hrequest.trans hnone.symm, fun d => ?_⟩
      rw [requestTimer_finallyBlock h.stage.requestTimer_ref, hquiet d]

/-! ## The timeout of the current request -/

/-- The request under way has the timer in the ref, which is armed or has aborted it. -/
def Timed (s : Readiness) : Prop :=
  ∀ c, s.Current c → s.Pending c → s.readinessRequestTimerRef = some c ∧
    ((s.checks c).requestTimer = true ∨ (s.checks c).aborted = true)

/-- Behind the call of `check` the request has its timer. -/
theorem timed_check {run attempt : ℕ} (hok : (s.check run attempt).ReadinessOk) :
    (s.check run attempt).Timed := by
  intro c hcurrent hpending
  have habort := (hok.stage.of_pending hcurrent hpending).abortRef
  obtain rfl : s.calls = c := Option.some.inj habort
  refine ⟨rfl, .inl ?_⟩
  show (Function.update s.checks s.calls _ s.calls).requestTimer = true
  rw [Function.update_self]

/-- While the current run waits for a request, no other request of it ends, and an old one that
ends finds no timer in the ref. -/
theorem ReadinessOk.timed_finallyBlock {u : Readiness} (h : s.ReadinessOk) (hs : s.Timed)
    (hpending : s.Pending c) (hspares : ¬ s.Current c → s.readinessRequestTimerRef = none)
    (habort : u.readinessAbortRef = s.readinessAbortRef) (hok : (u.finallyBlock c).ReadinessOk) :
    (u.finallyBlock c).Timed := by
  intro x hcurrent hpending'
  have href := (hok.stage.of_pending hcurrent hpending').abortRef
  rw [(finallyBlock_refs u c).2.2.2.2.2.2, habort] at href
  split_ifs at href with hc
  have hx := h.stage.of_abortRef href
  have hold : ¬ s.Current c := fun hcurrent =>
    hc (h.stage.of_pending hcurrent hpending).abortRef
  exact absurd ((hspares hold).symm.trans (hs x hx.current hx.pending).1)
    (Option.some_ne_none x).symm

/-- A request that goes on keeps its timer, or is aborted by it. -/
theorem Timed.modify (hs : s.Timed) {f : Check → Check}
    (hrun : ∀ check, (f check).run = check.run) (hpending : s.Pending c)
    (htimer : ∀ check : Check, check.requestTimer = true ∨ check.aborted = true →
      (f check).requestTimer = true ∨ (f check).aborted = true) :
    (s.modify (some c) f).Timed := by
  intro x hcurrent hpending'
  have hcurrent' : s.Current x := (modify_apply Check.run hrun s x).symm.trans hcurrent
  rcases eq_or_ne x c with rfl | hne
  · obtain ⟨href, harmed⟩ := hs x hcurrent' hpending
    rw [modify_self]
    exact ⟨href, htimer _ harmed⟩
  · have hx : (s.modify (some c) f).checks x = s.checks x :=
      modify_of_ne f fun heq => hne (Option.some.inj heq).symm
    rw [Pending, hx] at hpending'
    rw [hx]
    exact hs x hcurrent' hpending'

theorem abortRef_catchBlock : (s.catchBlock c).readinessAbortRef = s.readinessAbortRef := by
  unfold catchBlock
  split_ifs <;> rfl

theorem abortRef_becomeReady {nextHealth : Json} :
    (s.becomeReady c nextHealth).readinessAbortRef = s.readinessAbortRef := by
  unfold becomeReady
  split_ifs <;> rfl

/-- **A step that clears no timer of another run.** -/
theorem Timed.step (hs : s.Timed) (h : s.ReadinessOk) (hstep : s.step e = some t)
    (hspares : ¬ s.Disturbs e) : t.Timed := by
  have hok := h.step hstep
  have hnone : ∀ c, s.Finishes c e → ¬ s.Current c → s.readinessRequestTimerRef = none := by
    intro c hc hold
    by_contra hne
    exact hspares ⟨c, hold, hc, hne⟩
  cases e with
  | startReadinessCheck =>
    obtain rfl := Option.some.inj hstep
    exact timed_check hok
  | cancelReadinessCheck =>
    obtain rfl := Option.some.inj hstep
    intro c hcurrent hpending
    exact absurd (hok.stage.of_pending hcurrent hpending).abortRef (Option.some_ne_none c).symm
  | fetched c ok =>
    rw [Readiness.step] at hstep
    split_ifs at hstep with hphase hgood
    all_goals
      obtain rfl := Option.some.inj hstep
      have hpending : s.Pending c := pending_of_phase hphase Phase.noConfusion
    · exact hs.modify (fun _ => rfl) hpending fun _ => id
    · exact h.timed_finallyBlock hs hpending (hnone c ⟨rfl, hgood⟩) abortRef_catchBlock hok
  | parsed c body =>
    rw [Readiness.step] at hstep
    split_ifs at hstep with hphase
    have hpending : s.Pending c := pending_of_phase hphase Phase.noConfusion
    cases hbody : body.filter isHealth with
    | some nextHealth =>
      rw [hbody] at hstep
      obtain rfl := Option.some.inj hstep
      exact h.timed_finallyBlock hs hpending (hnone c rfl) abortRef_becomeReady hok
    | none =>
      rw [hbody] at hstep
      obtain rfl := Option.some.inj hstep
      exact h.timed_finallyBlock hs hpending (hnone c rfl) abortRef_catchBlock hok
  | requestTimer c =>
    rw [Readiness.step] at hstep
    split_ifs at hstep with harmed
    have hc := h.stage.of_requestTimer (Bool.eq_true_of_not_eq_false harmed)
    simp only at hstep
    split_ifs at hstep with hphase
    · obtain rfl := Option.some.inj hstep
      exact h.timed_finallyBlock hs hc.pending (fun hold => absurd hc.current hold)
        abortRef_catchBlock hok
    · obtain rfl := Option.some.inj hstep
      exact hs.modify (fun _ => rfl) hc.pending fun _ _ => .inr rfl
  | retryTimer c =>
    rw [Readiness.step] at hstep
    split_ifs at hstep with harmed
    obtain rfl := Option.some.inj hstep
    exact timed_check hok

/-! ## Runs -/

/-- The readiness check, of whose events those happen that `admits` lets happen. -/
def system (admits : Readiness → ReadinessEvent → Prop) : System Readiness :=
  System.ofEvents (· = initial) (fun s e t => s.step e = some t) admits

variable {admits : Readiness → ReadinessEvent → Prop}

theorem readinessOk (h : Reachable (system admits) s) : s.ReadinessOk := by
  refine h.invariant ?_ ?_
  · rintro s rfl
    exact readinessOk_initial
  · rintro s t - hs ⟨e, -, hstep⟩
    exact hs.step hstep

theorem timed (h : Reachable (system fun s e => ¬ s.Disturbs e) s) : s.Timed := by
  induction h with
  | init hinit =>
    subst hinit
    exact fun c _ hpending => absurd rfl hpending
  | step hs hst ih =>
    obtain ⟨e, hspares, hstep⟩ := hst
    exact ih.step (readinessOk hs) hstep hspares

theorem Stage.requests_le (h : s.Stage) : s.requests ≤ readinessMaxAttempts := by
  cases h with
  | ended h => exact h.requests_le
  | requesting c h => exact h.requests_eq.trans_le h.attempt_le
  | waiting c h => exact h.requests_eq.trans_le h.attempt_lt.le

/-- **Readiness runs disturb each other only at the request timer.**  In every run of the events the
current run of the check makes at most six requests, one at a time, and an event of an old one spares
the page and the current one; it leaves the request timers alone unless it ends the old one while the
ref holds a timer.  If no event does, every request has its timeout until it settles. -/
theorem readiness_runs_iff (h : Reachable (system admits) s) :
    s.requests ≤ 6 ∧
    (∀ c d, s.Current c → s.Pending c → s.Current d → s.Pending d → c = d) ∧
    (∀ e t, s.step e = some t → s.OfOldRun e →
      s.Spares t ∧ (s.KeepsRequestTimer t ↔ ¬ s.Disturbs e)) ∧
    ((∀ s e, admits s e → ¬ s.Disturbs e) → ∀ c, s.Current c → s.Pending c →
      s.readinessRequestTimerRef = some c ∧
        ((s.checks c).requestTimer = true ∨ (s.checks c).aborted = true)) := by
  have hok := readinessOk h
  refine ⟨hok.stage.requests_le, fun c d hc hpc hd hpd => ?_, fun e t hstep hold =>
    ⟨hok.spares hstep hold, hok.keepsRequestTimer_iff hstep hold⟩, fun hspares => ?_⟩
  · have hcref := (hok.stage.of_pending hc hpc).abortRef
    exact Option.some.inj (hcref.symm.trans (hok.stage.of_pending hd hpd).abortRef)
  · exact timed (h.of_admits hspares)

/-- The first request of the first run. -/
theorem readiness_runs_iff_first :
    initial.startReadinessCheck.readinessRequestTimerRef = some 0 ∧
      ((initial.startReadinessCheck.checks 0).requestTimer = true ∨
        (initial.startReadinessCheck.checks 0).aborted = true) := by
  have hreach : Reachable (system fun s e => ¬ s.Disturbs e) initial.startReadinessCheck := by
    refine .step (.init rfl) ⟨.startReadinessCheck, ?_, rfl⟩
    rintro ⟨c, -, hfinishes, -⟩
    exact hfinishes
  exact (readiness_runs_iff hreach).2.2.2 (fun _ _ => id) 0 rfl Phase.noConfusion

/-- The second of two runs, when the request of the first has been aborted and rejects. -/
def afterAbort : Readiness :=
  (initial.startReadinessCheck.startReadinessCheck.catchBlock 0).finallyBlock 0

/-- Its request has no timeout any more. -/
theorem request_without_timer : ¬ ∀ s, Reachable (system fun _ _ => True) s →
    ∀ c, s.Current c → s.Pending c → s.readinessRequestTimerRef = some c ∧
      ((s.checks c).requestTimer = true ∨ (s.checks c).aborted = true) := by
  intro h
  have hreach : Reachable (system fun _ _ => True) afterAbort := by
    refine .step (.step (.step (.init rfl) ⟨.startReadinessCheck, trivial, rfl⟩)
      ⟨.startReadinessCheck, trivial, rfl⟩) ⟨.fetched 0 none, trivial, rfl⟩
  have hpending : afterAbort.Pending 1 := by
    rw [Pending]
    decide
  exact absurd (h afterAbort hreach 1 (by rw [Current]; decide) hpending).1 (by decide)

end Readiness

end Frontend
end ChannelWire
