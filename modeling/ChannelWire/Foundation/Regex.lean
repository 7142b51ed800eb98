import Mathlib.Data.List.Basic
import Mathlib.Data.Option.Basic

/-!
# Regular expressions with anchors

The pieces that a pattern for a name is made of: the anchors `^` and `$`, a character class, a
sequence and a bounded or unbounded repetition.  `Matches r before text after` says that `r`
matches `text` between `before` and `after`; `$` matches at the end only.  A pattern is searched
for anywhere (`Searches`) or matched against the whole text (`FullMatches`).

An anchored search of a class and a full match of it come to the same
(`searches_anchored_iff`, `fullMatches_iff`).
-/

namespace Regex

universe u

/-- A pattern. -/
inductive Pattern (α : Type u) where
  | start
  | stop
  | cls (p : α → Bool)
  | seq (r r' : Pattern α)
  | rep (lo : ℕ) (hi : Option ℕ) (r : Pattern α)

variable {α : Type u}

/-- `n` matches, one after the other. -/
def Times (M : List α → List α → List α → Prop) : ℕ → List α → List α → List α → Prop
  | 0, _, text, _ => text = []
  | n + 1, before, text, after =>
    ∃ m m', text = m ++ m' ∧ M before m (m' ++ after) ∧ Times M n (before ++ m) m' after

/-- The pattern matches `text` where it stands. -/
def Matches : Pattern α → List α → List α → List α → Prop
  | .start, before, text, _ => before = [] ∧ text = []
  | .stop, _, text, after => text = [] ∧ after = []
  | .cls p, _, text, _ => ∃ c, text = [c] ∧ p c = true
  | .seq r r', before, text, after =>
    ∃ m m', text = m ++ m' ∧ Matches r before m (m' ++ after) ∧ Matches r' (before ++ m) m' after
  | .rep lo hi r, before, text, after =>
    ∃ n, lo ≤ n ∧ (∀ k ∈ hi, n ≤ k) ∧ Times (Matches r) n before text after

/-- The pattern matches somewhere. -/
def Searches (r : Pattern α) (text : List α) : Prop :=
  ∃ before m after, text = before ++ m ++ after ∧ Matches r before m after

/-- The pattern matches the whole text. -/
def FullMatches (r : Pattern α) (text : List α) : Prop := Matches r [] text []

/-- The pattern between `^` and `$`. -/
def Pattern.anchored (r : Pattern α) : Pattern α := .seq .start (.seq r .stop)

variable {p : α → Bool} {n lo : ℕ} {hi : Option ℕ} {before text after : List α}

/-- Repetitions of a class are the texts over it. -/
theorem times_cls : Times (Matches (.cls p)) n before text after ↔
    text.length = n ∧ ∀ c ∈ text, p c = true := by
  induction n generalizing before text with
  | zero =>
    constructor
    · rintro rfl
      exact ⟨rfl, fun _ hc => absurd hc List.not_mem_nil⟩
    · rintro ⟨hlen, -⟩
      exact List.length_eq_zero_iff.mp hlen
  | succ n ih =>
    constructor
    · rintro ⟨m, m', rfl, ⟨c, rfl, hc⟩, hrest⟩
      obtain ⟨hlen, hall⟩ := ih.mp hrest
      refine ⟨by rw [List.length_append, hlen, List.length_singleton, Nat.add_comm], ?_⟩
      intro d hd
      rcases List.mem_append.mp hd with hd | hd
      · rwa [List.mem_singleton.mp hd]
      · exact hall d hd
    · rintro ⟨hlen, hall⟩
      cases text with
      | nil => cases hlen
      | cons c m' =>
        refine ⟨[c], m', rfl, ⟨c, rfl, hall c List.mem_cons_self⟩, ih.mpr ⟨?_, ?_⟩⟩
        · exact Nat.succ.inj hlen
        · exact fun d hd => hall d (List.mem_cons_of_mem c hd)

theorem matches_rep_cls : Matches (.rep lo hi (.cls p)) before text after ↔
    lo ≤ text.length ∧ (∀ k ∈ hi, text.length ≤ k) ∧ ∀ c ∈ text, p c = true := by
  constructor
  · rintro ⟨n, hlo, hhi, htimes⟩
    obtain ⟨rfl, hall⟩ := times_cls.mp htimes
    exact ⟨hlo, hhi, hall⟩
  · rintro ⟨hlo, hhi, hall⟩
    exact ⟨text.length, hlo, hhi, times_cls.mpr ⟨rfl, hall⟩⟩

/-- **A full match of a repeated class** is a text over it. -/
theorem fullMatches_iff : FullMatches (.rep lo hi (.cls p)) text ↔
    lo ≤ text.length ∧ (∀ k ∈ hi, text.length ≤ k) ∧ ∀ c ∈ text, p c = true := matches_rep_cls

/-- **An anchored pattern is found if it matches the whole text.** -/
theorem searches_anchored_iff {r : Pattern α} : Searches r.anchored text ↔ FullMatches r text := by
  constructor
  · rintro ⟨before, m, after, rfl, m₁, m₂, rfl, ⟨rfl, rfl⟩, m₃, m₄, rfl, hr, rfl, rfl⟩
    simp only [List.nil_append, List.append_nil] at hr ⊢
    exact hr
  · intro hr
    have hr' : Matches r ([] ++ []) text ([] ++ []) := hr
    exact ⟨[], text, [], (List.append_nil text).symm, [], text, rfl, ⟨rfl, rfl⟩, text, [],
      (List.append_nil text).symm, hr', rfl, rfl⟩

end Regex
