import Mathlib.Data.List.Nodup
import Mathlib.Logic.Relation

/-!
# Transition systems and their invariants

A system is a set of initial states and a step relation.  `Reachable` is generated from the
initial states by steps, and `Reachable.invariant` is the one induction every safety result
uses: a property of the initial states that a step from a reachable state preserves holds of
every reachable state.

`System.ofEvents` is the system of a step relation labelled with events, of which only those that
meet a condition happen: its reachable states are the states of the runs all of whose events meet
it.

`Reachable.simulated` is forward simulation: when every step of one system can be followed by steps
of another, so can every run.
-/

namespace Transition

universe u

/-- Initial states and steps. -/
structure System (σ : Type u) where
  init : σ → Prop
  step : σ → σ → Prop

variable {σ : Type u}

/-- The states a run from an initial state can reach. -/
inductive Reachable (T : System σ) : σ → Prop where
  | init {s : σ} : T.init s → Reachable T s
  | step {s t : σ} : Reachable T s → T.step s t → Reachable T t

/-- **The invariant rule.** -/
theorem Reachable.invariant {T : System σ} {P : σ → Prop} (hinit : ∀ s, T.init s → P s)
    (hstep : ∀ s t, Reachable T s → P s → T.step s t → P t) {s : σ} (h : Reachable T s) : P s := by
  induction h with
  | init h => exact hinit _ h
  | step hs hst ih => exact hstep _ _ hs ih hst

/-- A run from a reachable state stays among the reachable states. -/
theorem Reachable.trans {T : System σ} {s t : σ} (hs : Reachable T s)
    (h : Relation.ReflTransGen T.step s t) : Reachable T t := by
  induction h with
  | refl => exact hs
  | tail _ hst ih => exact ih.step hst

/-- **Forward simulation.**  If an initial state has a related one, and every step from a reachable
state can be followed by steps from a related one, every reachable state has a related one. -/
theorem Reachable.simulated {α : Type*} {T : System σ} {A : System α} {R : σ → α → Prop}
    (hinit : ∀ s, T.init s → ∃ a, A.init a ∧ R s a)
    (hstep : ∀ s t a, Reachable T s → Reachable A a → R s a → T.step s t →
      ∃ b, Relation.ReflTransGen A.step a b ∧ R t b)
    {s : σ} (h : Reachable T s) : ∃ a, Reachable A a ∧ R s a := by
  induction h with
  | init h =>
    obtain ⟨a, ha, hrel⟩ := hinit _ h
    exact ⟨a, .init ha, hrel⟩
  | step hs hst ih =>
    obtain ⟨a, ha, hrel⟩ := ih
    obtain ⟨b, hab, hrel'⟩ := hstep _ _ a hs ha hrel hst
    exact ⟨b, ha.trans hab, hrel'⟩

/-- A property that every step preserves holds at the end of a run if it holds at its start. -/
theorem preserved_of_run {R : σ → σ → Prop} {P : σ → Prop} (hstep : ∀ s t, R s t → P s → P t)
    {s t : σ} (h : Relation.ReflTransGen R s t) (hs : P s) : P t := by
  induction h with
  | refl => exact hs
  | tail _ hst ih => exact hstep _ _ hst ih

/-! ## Systems of events -/

section Events

variable {ε : Type*} {init : σ → Prop} {step : σ → ε → σ → Prop}

/-- The system whose steps are the events that `admits` lets happen, each in the state in which
it would happen. -/
def System.ofEvents (init : σ → Prop) (step : σ → ε → σ → Prop) (admits : σ → ε → Prop) :
    System σ where
  init := init
  step s t := ∃ e, admits s e ∧ step s e t

/-- A run whose events all meet a condition meets every weaker condition. -/
theorem Reachable.of_admits {admits admits' : σ → ε → Prop}
    (h : ∀ s e, admits s e → admits' s e) {s : σ}
    (hs : Reachable (System.ofEvents init step admits) s) :
    Reachable (System.ofEvents init step admits') s := by
  induction hs with
  | init hinit => exact .init hinit
  | step _ hst ih =>
    obtain ⟨e, hadmits, hstep⟩ := hst
    exact ih.step ⟨e, h _ e hadmits, hstep⟩

end Events

/-! ## Loops in which every turn concerns one index

A loop over a list of indices whose body, at the turn of `j`, is invisible to the observer of
any other index `i`: then the observer of `i` sees its own turn only.  `P` is what the observer
needs to know of the states the loop goes through. -/

section Loop

variable {ι : Type*} {body : σ → ι → σ} {P : σ → Prop} {R : σ → σ → Prop}

/-- An observer to whom every turn is invisible sees nothing. -/
theorem foldl_invisible (hrefl : ∀ s, R s s) (htrans : ∀ a b c, R a b → R b c → R a c)
    (hP : ∀ s t, R s t → P s → P t) {l : List ι} (hbody : ∀ s, P s → ∀ j ∈ l, R s (body s j))
    {s : σ} (hs : P s) : R s (l.foldl body s) := by
  induction l generalizing s with
  | nil => exact hrefl s
  | cons j l ih =>
    have hj := hbody s hs j List.mem_cons_self
    exact htrans _ _ _ hj
      (ih (fun t ht k hk => hbody t ht k (List.mem_cons_of_mem j hk)) (hP _ _ hj hs))

/-- **An observer whose index has one turn sees that turn**, from a state that looks to it as
the loop's first one did. -/
theorem foldl_turn (hrefl : ∀ s, R s s) (htrans : ∀ a b c, R a b → R b c → R a c)
    (hP : ∀ s t, R s t → P s → P t) {i : ι} (hbody : ∀ s, P s → ∀ j, j ≠ i → R s (body s j))
    (hself : ∀ s, P s → P (body s i)) {l : List ι} (hl : l.Nodup) (hi : i ∈ l) {s : σ}
    (hs : P s) : ∃ t, R s t ∧ R (body t i) (l.foldl body s) := by
  obtain ⟨before, after, rfl⟩ := List.append_of_mem hi
  have hmiddle := List.nodup_middle.mp hl
  rw [List.nodup_cons, List.mem_append, not_or] at hmiddle
  have hne : ∀ j, j ∈ before ∨ j ∈ after → j ≠ i := by
    rintro j hj rfl
    exact hj.elim hmiddle.1.1 hmiddle.1.2
  have hbefore : R s (before.foldl body s) :=
    foldl_invisible hrefl htrans hP (fun t ht j hj => hbody t ht j (hne j (.inl hj))) hs
  refine ⟨before.foldl body s, hbefore, ?_⟩
  rw [List.foldl_append, List.foldl_cons]
  exact foldl_invisible hrefl htrans hP (fun t ht j hj => hbody t ht j (hne j (.inr hj)))
    (hself _ (hP _ _ hbefore hs))

end Loop

end Transition
