import Mathlib.Tactic.SplitIfs

/-!
# Coroutines with exceptions

A coroutine performs effects and waits at points.  An answer ends the wait, or an exception that is
raised there; `bind`, `tryExcept` and `tryFinally` are those of a language with exceptions.  Between
two waits a coroutine runs alone (`drive`), so a system of several coroutines takes its steps from
wait to wait.

`Ends` is the weakest precondition for an end of any kind: whatever the answers are, every effect is
legal where it is performed, and when the coroutine has returned or raised, the effects and the
answers have led to a state with the property `post`.  It follows the structure of a program
(`ends_bind`, `ends_tryExcept`, `ends_tryFinally`), and a coroutine keeps it on its way
(`Ends.drive`, `Ends.answer`).
-/

/-- A coroutine with effects `E` that waits at points `P` for answers `R`, raises `ε` and returns
`α`. -/
inductive Coroutine (P R E ε : Type) (α : Type) where
  | ret (a : α)
  | raise (e : ε)
  | perform (effect : E) (rest : Coroutine P R E ε α)
  | await (point : P) (rest : Except ε R → Coroutine P R E ε α)

namespace Coroutine

variable {P R E ε α β σ τ : Type}

/-! ## Programs -/

/-- First one, then the other. -/
def bind : Coroutine P R E ε α → (α → Coroutine P R E ε β) → Coroutine P R E ε β
  | ret a, next => next a
  | raise e, _ => raise e
  | perform effect rest, next => perform effect (rest.bind next)
  | await point rest, next => await point fun r => (rest r).bind next

/-- `try`, with an `except` for the exceptions that have a handler. -/
def tryExcept : Coroutine P R E ε α → (ε → Option (Coroutine P R E ε α)) → Coroutine P R E ε α
  | ret a, _ => ret a
  | raise e, handler => (handler e).getD (raise e)
  | perform effect rest, handler => perform effect (rest.tryExcept handler)
  | await point rest, handler => await point fun r => (rest r).tryExcept handler

/-- `try`, with a `finally`. -/
def tryFinally : Coroutine P R E ε α → Coroutine P R E ε Unit → Coroutine P R E ε α
  | ret a, final => final.bind fun _ => ret a
  | raise e, final => final.bind fun _ => raise e
  | perform effect rest, final => perform effect (rest.tryFinally final)
  | await point rest, final => await point fun r => (rest r).tryFinally final

/-- A wait whose exceptions are raised. -/
def wait (point : P) : Coroutine P R E ε R :=
  await point fun
    | .ok r => ret r
    | .error e => raise e

/-- An effect. -/
def emit (effect : E) : Coroutine P R E ε Unit := perform effect (ret ())

/-- `contextlib.suppress`: the exceptions in `catches` end the program quietly. -/
def suppress (catches : ε → Bool) (c : Coroutine P R E ε α) : Coroutine P R E ε Unit :=
  (c.bind fun _ => ret ()).tryExcept fun e => if catches e then some (ret ()) else none

/-! ## Steps -/

/-- The effects up to the next wait, or to the end, and what is left then. -/
def drive (act : τ → E → τ) : Coroutine P R E ε α → τ → τ × Coroutine P R E ε α
  | perform effect rest, t => rest.drive act (act t effect)
  | c, t => (t, c)

/-- It has returned or raised. -/
def isOver : Coroutine P R E ε α → Bool
  | ret _ | raise _ => true
  | _ => false

/-! ## Ends -/

/-- What a coroutine does to a state: its effects, each with the states in which it is legal, and
the answers it gets. -/
structure Effects (P R E ε σ : Type) where
  legal : E → σ → Prop
  apply : E → σ → σ
  answer : P → Except ε R → σ → σ

variable (F : Effects P R E ε σ)

/-- However `c` ends, that is in a state with the property `post`. -/
def Ends (post : Except ε α → σ → Prop) : Coroutine P R E ε α → σ → Prop
  | ret a, s => post (.ok a) s
  | raise e, s => post (.error e) s
  | perform effect rest, s => F.legal effect s ∧ rest.Ends post (F.apply effect s)
  | await point rest, s => ∀ r, (rest r).Ends post (F.answer point r s)

variable {F} {post post' : Except ε α → σ → Prop} {s : σ}

theorem Ends.mono {c : Coroutine P R E ε α} (h : c.Ends F post s)
    (hpost : ∀ r s, post r s → post' r s) : c.Ends F post' s := by
  induction c generalizing s with
  | ret a => exact hpost _ _ h
  | raise e => exact hpost _ _ h
  | perform effect rest ih => exact ⟨h.1, ih h.2⟩
  | await point rest ih => exact fun r => ih r (h r)

theorem ends_bind {c : Coroutine P R E ε α} {next : α → Coroutine P R E ε β}
    {post : Except ε β → σ → Prop}
    (h : c.Ends F (fun r s => match r with
      | .ok a => (next a).Ends F post s
      | .error e => post (.error e) s) s) : (c.bind next).Ends F post s := by
  induction c generalizing s with
  | ret a => exact h
  | raise e => exact h
  | perform effect rest ih => exact ⟨h.1, ih h.2⟩
  | await point rest ih => exact fun r => ih r (h r)

theorem ends_tryExcept {c : Coroutine P R E ε α} {handler : ε → Option (Coroutine P R E ε α)}
    (h : c.Ends F (fun r s => match r with
      | .ok a => post (.ok a) s
      | .error e => ((handler e).getD (raise e)).Ends F post s) s) :
    (c.tryExcept handler).Ends F post s := by
  induction c generalizing s with
  | ret a => exact h
  | raise e => exact h
  | perform effect rest ih => exact ⟨h.1, ih h.2⟩
  | await point rest ih => exact fun r => ih r (h r)

theorem ends_tryFinally {c : Coroutine P R E ε α} {final : Coroutine P R E ε Unit}
    (h : c.Ends F (fun r s => final.Ends F (fun r' s => match r' with
      | .ok _ => post r s
      | .error e => post (.error e) s) s) s) : (c.tryFinally final).Ends F post s := by
  induction c generalizing s with
  | ret a =>
    refine ends_bind (Ends.mono (c := final) h fun r s hr => ?_)
    cases r <;> exact hr
  | raise e =>
    refine ends_bind (Ends.mono (c := final) h fun r s hr => ?_)
    cases r <;> exact hr
  | perform effect rest ih => exact ⟨h.1, ih h.2⟩
  | await point rest ih => exact fun r => ih r (h r)

/-- `ends_tryFinally`, for what holds of the state whatever the result is. -/
theorem ends_tryFinally_state {Q : σ → Prop} {c : Coroutine P R E ε α}
    {final : Coroutine P R E ε Unit}
    (h : c.Ends F (fun _ s => final.Ends F (fun _ => Q) s) s) :
    (c.tryFinally final).Ends F (fun _ => Q) s :=
  ends_tryFinally (h.mono fun _ _ hs => Ends.mono (c := final) hs fun r' _ hQ => by
    cases r' <;> exact hQ)

theorem ends_wait {point : P} {post : Except ε R → σ → Prop}
    (h : ∀ r, post r (F.answer point r s)) : (wait point : Coroutine P R E ε R).Ends F post s := by
  intro r
  cases r <;> exact h _

theorem ends_emit {effect : E} {post : Except ε Unit → σ → Prop} (hlegal : F.legal effect s)
    (h : post (.ok ()) (F.apply effect s)) :
    (emit effect : Coroutine P R E ε Unit).Ends F post s := ⟨hlegal, h⟩

theorem ends_suppress {c : Coroutine P R E ε α} {catches : ε → Bool}
    {post : Except ε Unit → σ → Prop}
    (h : c.Ends F (fun r s => match r with
      | .ok _ => post (.ok ()) s
      | .error e => if catches e then post (.ok ()) s else post (.error e) s) s) :
    (suppress catches c).Ends F post s := by
  refine ends_tryExcept (ends_bind (h.mono fun r s hr => ?_))
  cases r with
  | ok a => exact hr
  | error e =>
    simp only at hr ⊢
    split_ifs at hr ⊢ <;> exact hr

/-- An answer ends a wait. -/
theorem Ends.answer {point : P} {rest : Except ε R → Coroutine P R E ε α}
    (h : (await point rest).Ends F post s) (r : Except ε R) :
    (rest r).Ends F post (F.answer point r s) := h r

/-- **From one wait to the next.**  A system in which an effect of the coroutine acts as `act` keeps
an invariant that every legal effect keeps. -/
theorem Ends.drive {act : τ → E → τ} {view : τ → σ} {I : τ → Prop}
    (hact : ∀ t effect, I t → F.legal effect (view t) →
      I (act t effect) ∧ view (act t effect) = F.apply effect (view t))
    {c : Coroutine P R E ε α} {t : τ} (h : c.Ends F post (view t)) (ht : I t) :
    I (c.drive act t).1 ∧ (c.drive act t).2.Ends F post (view (c.drive act t).1) := by
  induction c generalizing t with
  | ret a => exact ⟨ht, h⟩
  | raise e => exact ⟨ht, h⟩
  | perform effect rest ih =>
    obtain ⟨hI, hview⟩ := hact t effect ht h.1
    exact ih (hview ▸ h.2) hI
  | await point rest ih => exact ⟨ht, h⟩

/-- `Ends.drive`, for a state that no effect changes. -/
theorem Ends.drive_of_apply (happly : ∀ effect s, F.apply effect s = s) {act : τ → E → τ}
    {c : Coroutine P R E ε α} (h : c.Ends F post s) (t : τ) :
    (c.drive act t).2.Ends F post s :=
  (@Ends.drive _ _ _ _ _ _ _ F post act (fun _ => s) (fun _ => True)
    (fun _ effect _ _ => ⟨trivial, (happly effect s).symm⟩) c t h trivial).2

/-- A coroutine that is over has ended well. -/
theorem Ends.of_isOver {c : Coroutine P R E ε α} (h : c.Ends F post s)
    (hover : c.isOver = true) : ∃ r, post r s := by
  cases c with
  | ret a => exact ⟨_, h⟩
  | raise e => exact ⟨_, h⟩
  | perform effect rest => cases hover
  | await point rest => cases hover

end Coroutine
