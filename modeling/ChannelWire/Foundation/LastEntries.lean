import Mathlib.Data.List.Sort
import Mathlib.Data.List.Nodup

/-!
# The last entries of a table

A page is read from a table by a filter, an order with the greatest key first and a limit, and is
then turned around.  `IsLast` says what such a page is without an order of evaluation: the last
`n` entries with the property, in the order of their keys.  A table has one such page
(`IsLast.unique`), whatever order its entries stand in, and a shorter page is the end of a longer
one (`lastEntries_suffix`).
-/

namespace LastEntries

universe u v

variable {α : Type u} {κ : Type v} [LinearOrder κ]

/-- `page` lists the last `n` entries of `l` with `p` in the order of their keys. -/
structure IsLast (key : α → κ) (p : α → Prop) [DecidablePred p] (l : List α) (n : ℕ)
    (page : List α) : Prop where
  sorted : page.Pairwise fun a b => key a < key b
  entries : ∀ a ∈ page, a ∈ l ∧ p a
  length : page.length = min n (l.filter (p ·)).length
  last : ∀ a ∈ l, p a → a ∉ page → ∀ b ∈ page, key a < key b

/-- The entries of `l` with `p`, the one with the greatest key first. -/
def descending (key : α → κ) (p : α → Prop) [DecidablePred p] (l : List α) : List α :=
  (l.filter (p ·)).mergeSort fun a b => key b ≤ key a

/-- The first `n` entries of `descending`, turned around. -/
def lastEntries (key : α → κ) (p : α → Prop) [DecidablePred p] (n : ℕ) (l : List α) : List α :=
  ((descending key p l).take n).reverse

variable {key : α → κ} {p : α → Prop} [DecidablePred p] {l : List α} {m n : ℕ}
  {page page' : List α}

/-! ## The page that is read -/

theorem mem_descending {a : α} : a ∈ descending key p l ↔ a ∈ l ∧ p a := by
  rw [descending, List.mem_mergeSort, List.mem_filter, decide_eq_true_iff]

theorem length_descending : (descending key p l).length = (l.filter (p ·)).length :=
  List.length_mergeSort _

/-- Distinct keys make the order strict. -/
theorem descending_sorted (h : (l.map key).Nodup) :
    (descending key p l).Pairwise fun a b => key b < key a := by
  have hle : (descending key p l).Pairwise fun a b => key b ≤ key a := by
    refine (List.pairwise_mergeSort ?_ ?_ (l.filter (p ·))).imp fun hab => of_decide_eq_true hab
    · intro a b c hab hbc
      exact decide_eq_true ((of_decide_eq_true hbc).trans (of_decide_eq_true hab))
    · intro a b
      rw [Bool.or_eq_true, decide_eq_true_iff, decide_eq_true_iff]
      exact le_total _ _
  have hne : (descending key p l).Pairwise fun a b => key a ≠ key b := by
    refine List.pairwise_map.mp (?_ : ((descending key p l).map key).Nodup)
    refine ((List.mergeSort_perm _ _).map key).nodup_iff.mpr ?_
    exact h.sublist (List.filter_sublist.map key)
  exact (hle.and hne).imp fun hab => lt_of_le_of_ne hab.1 hab.2.symm

/-- **What is read is the last page.** -/
theorem isLast_lastEntries (h : (l.map key).Nodup) (n : ℕ) :
    IsLast key p l n (lastEntries key p n l) := by
  have hsorted := descending_sorted (p := p) h
  have hmem : ∀ {a : α}, a ∈ lastEntries key p n l ↔ a ∈ (descending key p l).take n :=
    List.mem_reverse
  constructor
  · exact List.pairwise_reverse.mpr (hsorted.sublist (List.take_sublist n _))
  · intro a ha
    exact mem_descending.mp (List.mem_of_mem_take (hmem.mp ha))
  · rw [lastEntries, List.length_reverse, List.length_take, length_descending]
  · intro a ha hpa hnot b hb
    -- an entry outside the page stands behind the limit
    have hsplit : (descending key p l).take n ++ (descending key p l).drop n =
        descending key p l := List.take_append_drop n _
    rw [← hsplit] at hsorted
    have hmem' : a ∈ descending key p l := mem_descending.mpr ⟨ha, hpa⟩
    rw [← hsplit] at hmem'
    have hdrop := (List.mem_append.mp hmem').resolve_left fun htake => hnot (hmem.mpr htake)
    exact (List.pairwise_append.mp hsorted).2.2 b (hmem.mp hb) a hdrop

/-- **A shorter page is the end of a longer one.** -/
theorem lastEntries_suffix (hmn : m ≤ n) : lastEntries key p m l <:+ lastEntries key p n l :=
  List.reverse_suffix.mpr (List.take_prefix_take_left hmn)

/-- Properties that say the same have one page. -/
theorem lastEntries_congr {q : α → Prop} [DecidablePred q] (h : ∀ a, p a ↔ q a) :
    lastEntries key p n l = lastEntries key q n l := by
  obtain rfl : p = q := funext fun a => propext (h a)
  congr

/-! ## There is one page -/

namespace IsLast

theorem nodup (h : IsLast key p l n page) : page.Nodup :=
  h.sorted.imp fun hab heq => absurd (congrArg key heq) hab.ne

/-- If a page has an entry that another lacks, then so has the other. -/
theorem exists_not_mem (h : IsLast key p l n page) (h' : IsLast key p l n page') {a : α}
    (ha : a ∈ page) (hnot : a ∉ page') : ∃ b ∈ page', b ∉ page := by
  by_contra hsub
  have hsubset : a :: page' ⊆ page := by
    intro b hb
    rcases List.mem_cons.mp hb with rfl | hb
    · exact ha
    · exact not_not.mp fun hb' => hsub ⟨b, hb, hb'⟩
  have hle := (List.subperm_of_subset (List.nodup_cons.mpr ⟨hnot, h'.nodup⟩) hsubset).length_le
  rw [List.length_cons, h'.length, ← h.length] at hle
  exact absurd hle (Nat.not_succ_le_self _)

theorem subset (h : IsLast key p l n page) (h' : IsLast key p l n page') : page ⊆ page' := by
  intro a ha
  by_contra hnot
  obtain ⟨b, hb, hb'⟩ := h.exists_not_mem h' ha hnot
  have hab : key a < key b := h'.last a (h.entries a ha).1 (h.entries a ha).2 hnot b hb
  have hba : key b < key a := h.last b (h'.entries b hb).1 (h'.entries b hb).2 hb' a ha
  exact absurd hab hba.asymm

/-- **The last page is unique.** -/
theorem unique (h : IsLast key p l n page) (h' : IsLast key p l n page') : page = page' := by
  have hperm : page.Perm page' := (List.perm_ext_iff_of_nodup h.nodup h'.nodup).mpr fun a =>
    ⟨fun ha => h.subset h' ha, fun ha => h'.subset h ha⟩
  exact hperm.eq_of_pairwise (fun a b _ _ hab hba => absurd hab hba.asymm) h.sorted h'.sorted

end IsLast

end LastEntries
