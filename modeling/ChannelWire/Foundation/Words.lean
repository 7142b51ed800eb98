import Mathlib.Data.List.TakeWhile
import Mathlib.Data.List.Chain

/-!
# Trimming, splitting and joining

A text is trimmed of blanks at both ends, split at every run of blanks, and joined again with a
separator.  Splitting and joining turns every run of blanks into one separator
(`intercalate_splitRuns`), so it gives the text back exactly if every run is one separator already
(`intercalate_splitRuns_eq_iff`).
-/

namespace Words

universe u

variable {α : Type u}

/-- The text without the blanks at its end. -/
def trimEnd (blank : α → Bool) (s : List α) : List α := (s.reverse.dropWhile blank).reverse

/-- The text without the blanks at both ends. -/
def trim (blank : α → Bool) (s : List α) : List α := trimEnd blank (s.dropWhile blank)

/-- The first character is a blank. -/
def startsBlank (blank : α → Bool) (s : List α) : Bool := s.head?.any blank

/-- A character more in front of the first piece. -/
def consHead (c : α) : List (List α) → List (List α)
  | [] => [[c]]
  | piece :: pieces => (c :: piece) :: pieces

/-- The pieces between the runs of blanks; there is an empty one before a run at the start and one
behind a run at the end. -/
def splitRuns (blank : α → Bool) : List α → List (List α)
  | [] => [[]]
  | c :: s =>
    if blank c then
      if startsBlank blank s then splitRuns blank s else [] :: splitRuns blank s
    else consHead c (splitRuns blank s)

/-- The text with every run of blanks replaced by `sep`. -/
def collapse (blank : α → Bool) (sep : α) : List α → List α
  | [] => []
  | c :: s =>
    if blank c then
      if startsBlank blank s then collapse blank sep s else sep :: collapse blank sep s
    else c :: collapse blank sep s

/-- Every run of blanks is one `sep`. -/
def SingleBlanks (blank : α → Bool) (sep : α) (s : List α) : Prop :=
  (∀ c ∈ s, blank c = true → c = sep) ∧ s.IsChain fun a b => ¬ (blank a = true ∧ blank b = true)

variable {blank : α → Bool} {sep c : α} {s t w : List α}

/-! ## Trimming -/

theorem trimEnd_append (h : ∃ c ∈ t, blank c = false) :
    trimEnd blank (s ++ t) = s ++ trimEnd blank t := by
  have hne : ¬ (t.reverse.dropWhile blank).isEmpty = true := by
    rw [List.isEmpty_iff, List.dropWhile_eq_nil_iff]
    obtain ⟨c, hc, hblank⟩ := h
    exact fun hall => Bool.eq_false_iff.mp hblank (hall c (List.mem_reverse.mpr hc))
  rw [trimEnd, List.reverse_append, List.dropWhile_append, if_neg hne, List.reverse_append,
    List.reverse_reverse]
  rfl

theorem exists_mem_dropWhile (h : ∃ c ∈ s, blank c = false) :
    ∃ c ∈ s.dropWhile blank, blank c = false := by
  obtain ⟨c, hc, hblank⟩ := h
  refine ⟨c, ?_, hblank⟩
  rw [← List.takeWhile_append_dropWhile (p := blank) (l := s)] at hc
  rcases List.mem_append.mp hc with hc | hc
  · exact absurd (List.mem_takeWhile_imp hc) (Bool.eq_false_iff.mp hblank)
  · exact hc

/-- Only the end of a text is trimmed behind a word. -/
theorem trim_append (hw : ∀ c ∈ w.head?, blank c = false) (hne : w ≠ [])
    (h : ∃ c ∈ t, blank c = false) :
    trim blank (w ++ t) = w ++ (t.takeWhile blank ++ trim blank t) := by
  obtain ⟨c, w, rfl⟩ := List.exists_cons_of_ne_nil hne
  have hdrop : (c :: w ++ t).dropWhile blank = c :: w ++ t :=
    List.dropWhile_cons_of_neg (Bool.eq_false_iff.mp (hw c rfl))
  have hsplit : trimEnd blank t = t.takeWhile blank ++ trim blank t := by
    rw [trim, ← trimEnd_append (exists_mem_dropWhile h), List.takeWhile_append_dropWhile]
  rw [trim, hdrop, trimEnd_append h, hsplit]

/-- A text without blanks is trimmed already. -/
theorem trim_eq_self (h : ∀ c ∈ s, blank c = false) : trim blank s = s := by
  have hdrop : ∀ l : List α, (∀ c ∈ l, blank c = false) → l.dropWhile blank = l := by
    intro l hl
    cases l with
    | nil => rfl
    | cons c l => exact List.dropWhile_cons_of_neg (Bool.eq_false_iff.mp (hl c List.mem_cons_self))
  rw [trim, hdrop s h, trimEnd, hdrop s.reverse fun c hc => h c (List.mem_reverse.mp hc),
    List.reverse_reverse]

theorem trim_ne_nil (h : ∃ c ∈ s, blank c = false) : trim blank s ≠ [] := by
  intro hnil
  obtain ⟨c, hc, hblank⟩ := exists_mem_dropWhile h
  have hall := List.dropWhile_eq_nil_iff.mp (List.reverse_eq_nil_iff.mp hnil)
  exact Bool.eq_false_iff.mp hblank (hall c (List.mem_reverse.mpr hc))

/-- A trimmed text starts with no blank. -/
theorem startsBlank_trim (h : ∃ c ∈ s, blank c = false) :
    startsBlank blank (trim blank s) = false := by
  obtain ⟨d, hd, hblank⟩ := exists_mem_dropWhile h
  obtain ⟨c, rest, hdrop⟩ := List.exists_cons_of_ne_nil (List.ne_nil_of_mem hd)
  have hc : blank c = false := by
    have hhead := List.head?_dropWhile_not blank s
    rw [hdrop] at hhead
    simpa using hhead
  rw [trim, hdrop]
  by_cases hrest : ∃ d ∈ rest, blank d = false
  · have happend := trimEnd_append (s := [c]) hrest
    rw [List.singleton_append, List.singleton_append] at happend
    rw [happend]
    exact hc
  · have hall : ∀ d ∈ rest.reverse, blank d = true := by
      intro d hd
      by_contra hd'
      exact hrest ⟨d, List.mem_reverse.mp hd, Bool.eq_false_iff.mpr hd'⟩
    rw [trimEnd, List.reverse_cons, List.dropWhile_append_of_pos hall,
      List.dropWhile_cons_of_neg (Bool.eq_false_iff.mp hc)]
    exact hc

/-! ## Splitting -/

theorem splitRuns_ne_nil (s : List α) : splitRuns blank s ≠ [] := by
  induction s with
  | nil => exact List.cons_ne_nil _ _
  | cons c s ih =>
    rw [splitRuns]
    split_ifs
    · exact ih
    · exact List.cons_ne_nil _ _
    · cases splitRuns blank s with
      | nil => exact List.cons_ne_nil _ _
      | cons piece pieces => exact List.cons_ne_nil _ _

/-- A run of blanks ends the first piece. -/
theorem splitRuns_run (hw : ∀ c ∈ w, blank c = true) (hne : w ≠ [])
    (hs : startsBlank blank s = false) : splitRuns blank (w ++ s) = [] :: splitRuns blank s := by
  induction w with
  | nil => exact absurd rfl hne
  | cons c w ih =>
    have hc := hw c List.mem_cons_self
    cases w with
    | nil =>
      rw [List.singleton_append, splitRuns, if_pos hc, if_neg (Bool.eq_false_iff.mp hs)]
    | cons d w =>
      have hstart : startsBlank blank (d :: w ++ s) = true :=
        hw d (List.mem_cons_of_mem c List.mem_cons_self)
      rw [List.cons_append, splitRuns, if_pos hc, if_pos hstart]
      exact ih (fun e he => hw e (List.mem_cons_of_mem c he)) (List.cons_ne_nil d w)

/-- A word goes in front of the first piece. -/
theorem splitRuns_word (hw : ∀ c ∈ w, blank c = false) {pieces : List (List α)}
    (h : splitRuns blank s = [] :: pieces) : splitRuns blank (w ++ s) = w :: pieces := by
  induction w with
  | nil => exact h
  | cons c w ih =>
    rw [List.cons_append, splitRuns, if_neg (Bool.eq_false_iff.mp (hw c List.mem_cons_self)),
      ih fun d hd => hw d (List.mem_cons_of_mem c hd)]
    rfl

/-- **A word and a run of blanks are split off.** -/
theorem splitRuns_word_run {run : List α} (hw : ∀ c ∈ w, blank c = false)
    (hrun : ∀ c ∈ run, blank c = true) (hne : run ≠ []) (hs : startsBlank blank s = false) :
    splitRuns blank (w ++ (run ++ s)) = w :: splitRuns blank s :=
  splitRuns_word hw (splitRuns_run hrun hne hs)

/-- The first piece of a text that starts with no blank is not empty. -/
theorem exists_splitRuns (hs : startsBlank blank s = false) (hne : s ≠ []) :
    ∃ piece pieces, splitRuns blank s = piece :: pieces ∧ piece ≠ [] := by
  obtain ⟨c, s, rfl⟩ := List.exists_cons_of_ne_nil hne
  have hc : ¬ blank c = true := Bool.eq_false_iff.mp hs
  rw [splitRuns, if_neg hc]
  obtain ⟨piece, pieces, hpieces⟩ := List.exists_cons_of_ne_nil (@splitRuns_ne_nil _ blank s)
  rw [hpieces]
  exact ⟨_, _, rfl, List.cons_ne_nil c piece⟩

/-- The pieces hold no blank. -/
theorem not_blank_of_mem_splitRuns {piece : List α}
    (h : piece ∈ splitRuns blank s) : ∀ c ∈ piece, blank c = false := by
  induction s generalizing piece with
  | nil =>
    obtain rfl := List.mem_singleton.mp h
    exact fun c hc => absurd hc List.not_mem_nil
  | cons d s ih =>
    rw [splitRuns] at h
    split_ifs at h with hblank hstart
    · exact ih h
    · rcases List.mem_cons.mp h with rfl | h
      · exact fun c hc => absurd hc List.not_mem_nil
      · exact ih h
    · obtain ⟨first, rest, hpieces⟩ := List.exists_cons_of_ne_nil (@splitRuns_ne_nil _ blank s)
      rw [hpieces] at h ih
      rcases List.mem_cons.mp h with rfl | h
      · exact List.forall_mem_cons.mpr ⟨Bool.eq_false_iff.mpr hblank, ih List.mem_cons_self⟩
      · exact ih (List.mem_cons_of_mem first h)

/-! ## Joining -/

theorem intercalate_consHead {pieces : List (List α)} (hne : pieces ≠ []) :
    [sep].intercalate (consHead c pieces) = c :: [sep].intercalate pieces := by
  obtain ⟨piece, rest, rfl⟩ := List.exists_cons_of_ne_nil hne
  cases rest with
  | nil => rw [consHead, List.intercalate_singleton, List.intercalate_singleton]
  | cons q rest =>
    rw [consHead, List.intercalate_cons_cons, List.intercalate_cons_cons]
    rfl

/-- **Splitting and joining** turns every run of blanks into one separator. -/
theorem intercalate_splitRuns (s : List α) :
    [sep].intercalate (splitRuns blank s) = collapse blank sep s := by
  induction s with
  | nil => rfl
  | cons c s ih =>
    rw [splitRuns, collapse]
    split_ifs
    · exact ih
    · rw [List.intercalate_cons_of_ne_nil (splitRuns_ne_nil s), ih]
      rfl
    · rw [intercalate_consHead (splitRuns_ne_nil s), ih]

theorem length_collapse_le (s : List α) : (collapse blank sep s).length ≤ s.length := by
  induction s with
  | nil => exact Nat.le_refl 0
  | cons c s ih =>
    rw [collapse]
    split_ifs
    · exact ih.trans (Nat.le_succ _)
    · exact Nat.succ_le_succ ih
    · exact Nat.succ_le_succ ih

theorem singleBlanks_cons : SingleBlanks blank sep (c :: s) ↔
    (blank c = true → c = sep ∧ startsBlank blank s = false) ∧ SingleBlanks blank sep s := by
  unfold SingleBlanks
  rw [List.forall_mem_cons, List.isChain_cons]
  have hstart : (∀ d ∈ s.head?, ¬ (blank c = true ∧ blank d = true)) ↔
      (blank c = true → startsBlank blank s = false) := by
    cases s with
    | nil => simp [startsBlank]
    | cons d s => simp [startsBlank]
  rw [hstart]
  constructor
  · rintro ⟨⟨hc, hall⟩, hnext, hchain⟩
    exact ⟨fun hblank => ⟨hc hblank, hnext hblank⟩, hall, hchain⟩
  · rintro ⟨hc, hall, hchain⟩
    exact ⟨⟨fun hblank => (hc hblank).1, hall⟩, fun hblank => (hc hblank).2, hchain⟩

/-- **A text is split and joined without loss** if every run of blanks is one separator. -/
theorem intercalate_splitRuns_eq_iff (s : List α) :
    [sep].intercalate (splitRuns blank s) = s ↔ SingleBlanks blank sep s := by
  rw [intercalate_splitRuns]
  induction s with
  | nil => exact iff_of_true rfl ⟨fun _ hc => absurd hc List.not_mem_nil, .nil⟩
  | cons c s ih =>
    rw [singleBlanks_cons, ← ih, collapse]
    split_ifs with hblank hstart
    · -- the run is longer than one blank, and the text gets shorter
      refine iff_of_false (fun heq => ?_) fun h => ?_
      · have hlen := congrArg List.length heq
        rw [List.length_cons] at hlen
        exact absurd (@length_collapse_le _ blank sep s) (by omega)
      · exact absurd (h.1 hblank).2 (Bool.not_eq_false _ ▸ hstart)
    · rw [List.cons.injEq]
      have hstart' := Bool.eq_false_iff.mpr hstart
      exact ⟨fun h => ⟨fun _ => ⟨h.1.symm, hstart'⟩, h.2⟩, fun h => ⟨(h.1 hblank).1.symm, h.2⟩⟩
    · rw [List.cons.injEq]
      exact ⟨fun h => ⟨fun hc => absurd hc hblank, h.2⟩, fun h => ⟨rfl, h.2⟩⟩

end Words
