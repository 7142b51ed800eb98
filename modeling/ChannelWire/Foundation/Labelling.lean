import Mathlib.Data.List.Basic
import Mathlib.Data.List.Induction

/-!
# Labelling by the position of the cause

A log lists events, and each event causes some items.  `labelled` is the list of the items, each
with the position of its cause in the log.  It is a list of its own, with its own positions: what
one observer sees of the log, in order.

The log only grows at its end, so a labelled item keeps its position and its label
(`labelled_isPrefix`).  If no event causes two items, the label determines the item
(`labelled_inj`).
-/

namespace Labelling

universe u v w

variable {α : Type u} {β : Type v}

/-- The items that the events of a log cause, each with the position of its event. -/
def labelled (f : α → List β) (log : List α) : List (β × ℕ) :=
  log.zipIdx.flatMap fun e => (f e.1).map (·, e.2)

variable {f : α → List β} {log : List α} {a : α} {b : β} {i j n : ℕ}

@[simp] theorem labelled_nil (f : α → List β) : labelled f [] = [] := rfl

theorem labelled_concat (f : α → List β) (log : List α) (a : α) :
    labelled f (log ++ [a]) = labelled f log ++ (f a).map (·, log.length) := by
  rw [labelled, List.zipIdx_append, List.flatMap_append, Nat.zero_add, List.zipIdx_singleton,
    List.flatMap_singleton]
  rfl

/-- Without the labels, these are all items. -/
theorem map_fst_labelled (f : α → List β) (log : List α) :
    (labelled f log).map Prod.fst = log.flatMap f := by
  rw [labelled, List.map_flatMap]
  have hitems : ∀ e : α × ℕ, ((f e.1).map (·, e.2)).map Prod.fst = f e.1 := fun e => by
    rw [List.map_map]
    exact List.map_id _
  simp only [hitems]
  rw [← List.flatMap_map (f := Prod.fst), List.zipIdx_map_fst]

theorem mem_labelled : (b, n) ∈ labelled f log ↔ ∃ a, log[n]? = some a ∧ b ∈ f a := by
  rw [labelled, List.mem_flatMap]
  constructor
  · rintro ⟨⟨a, m⟩, hmem, hb⟩
    obtain ⟨b', hb', heq⟩ := List.mem_map.mp hb
    obtain ⟨rfl, rfl⟩ := Prod.mk.inj heq
    exact ⟨a, List.mk_mem_zipIdx_iff_getElem?.mp hmem, hb'⟩
  · rintro ⟨a, ha, hb⟩
    exact ⟨(a, n), List.mk_mem_zipIdx_iff_getElem?.mpr ha, List.mem_map_of_mem hb⟩

theorem lt_length_of_mem_labelled (h : (b, n) ∈ labelled f log) : n < log.length := by
  obtain ⟨a, ha, -⟩ := mem_labelled.mp h
  exact (List.getElem?_eq_some_iff.mp ha).1

/-- **The items stay where they are when the log grows.** -/
theorem labelled_isPrefix (f : α → List β) {log log' : List α} (h : log <+: log') :
    labelled f log <+: labelled f log' := by
  obtain ⟨rest, rfl⟩ := h
  rw [labelled, labelled, List.zipIdx_append, List.flatMap_append]
  exact List.prefix_append ..

/-- The labels increase, and a relation between the items of each event holds where they stay. -/
theorem labelled_pairwise_of {R : β → β → Prop} (hf : ∀ a ∈ log, (f a).Pairwise R) :
    (labelled f log).Pairwise fun x y => x.2 < y.2 ∨ x.2 = y.2 ∧ R x.1 y.1 := by
  induction log using List.reverseRecOn with
  | nil => exact .nil
  | append_singleton log a ih =>
    rw [labelled_concat]
    have hold := ih fun a' ha' => hf a' (List.mem_append_left _ ha')
    have hnew := hf a (List.mem_append_right _ (List.mem_singleton_self a))
    refine List.pairwise_append.mpr ⟨hold, ?_, fun x hx y hy => ?_⟩
    · exact List.pairwise_map.mpr (hnew.imp fun hR => .inr ⟨rfl, hR⟩)
    · obtain ⟨b, -, rfl⟩ := List.mem_map.mp hy
      exact .inl (lt_length_of_mem_labelled hx)

/-- If no event causes two items, the labels increase. -/
theorem labelled_pairwise (hf : ∀ a, (f a).length ≤ 1) (log : List α) :
    (labelled f log).Pairwise fun a b => a.2 < b.2 := by
  have hone : ∀ a ∈ log, (f a).Pairwise fun _ _ => False := by
    intro a _
    have hlen := hf a
    generalize f a = items at hlen
    match items with
    | [] => exact .nil
    | [x] => exact List.pairwise_singleton _ _
  exact (labelled_pairwise_of hone).imp fun h => h.elim id fun h => h.2.elim

/-- Of two items of one event, at different positions, the relation holds. -/
theorem rel_of_labelled {R : β → β → Prop} (hf : ∀ a ∈ log, (f a).Pairwise R) {x y : β}
    (hi : (labelled f log)[i]? = some (x, n)) (hj : (labelled f log)[j]? = some (y, n))
    (hlt : i < j) : R x y := by
  obtain ⟨hilt, hix⟩ := List.getElem?_eq_some_iff.mp hi
  obtain ⟨hjlt, hjy⟩ := List.getElem?_eq_some_iff.mp hj
  have hrel := List.pairwise_iff_getElem.mp (labelled_pairwise_of hf) i j hilt hjlt hlt
  rw [hix, hjy] at hrel
  rcases hrel with hless | ⟨-, hR⟩
  · exact absurd hless (Nat.lt_irrefl n)
  · exact hR

/-- The items that a filter lets pass, each with its label. -/
theorem filter_labelled (q : β → Bool) (f : α → List β) (log : List α) :
    (labelled f log).filter (fun x => q x.1) = labelled (fun a => (f a).filter q) log := by
  rw [labelled, labelled, List.filter_flatMap]
  refine List.flatMap_congr fun e _ => ?_
  rw [List.filter_map]
  rfl

/-- The items, changed one by one, each with its label. -/
theorem map_labelled {γ : Type w} (g : β → γ) (f : α → List β) (log : List α) :
    (labelled f log).map (Prod.map g id) = labelled (fun a => (f a).map g) log := by
  rw [labelled, labelled, List.map_flatMap]
  refine List.flatMap_congr fun e _ => ?_
  rw [List.map_map, List.map_map]
  rfl

theorem labelled_congr {g : α → List β} (h : ∀ a ∈ log, f a = g a) :
    labelled f log = labelled g log := by
  rw [labelled, labelled]
  refine List.flatMap_congr fun e he => ?_
  rw [h e.1 (List.fst_mem_of_mem_zipIdx he)]

/-- The labels tell only how many items each event causes. -/
theorem map_snd_labelled_congr {γ : Type w} {g : α → List γ}
    (h : ∀ a ∈ log, (f a).length = (g a).length) :
    (labelled f log).map Prod.snd = (labelled g log).map Prod.snd := by
  rw [labelled, labelled, List.map_flatMap, List.map_flatMap]
  refine List.flatMap_congr fun e he => ?_
  have hlen := h e.1 (List.fst_mem_of_mem_zipIdx he)
  rw [List.map_map, List.map_map]
  show (f e.1).map (fun _ => e.2) = (g e.1).map fun _ => e.2
  rw [List.map_const', List.map_const', hlen]

/-- **The label determines the position**, if no event causes two items. -/
theorem labelled_inj (hf : ∀ a, (f a).length ≤ 1) {x y : β}
    (hi : (labelled f log)[i]? = some (x, n)) (hj : (labelled f log)[j]? = some (y, n)) :
    i = j := by
  obtain ⟨hilt, hix⟩ := List.getElem?_eq_some_iff.mp hi
  obtain ⟨hjlt, hjy⟩ := List.getElem?_eq_some_iff.mp hj
  have hpairwise := List.pairwise_iff_getElem.mp (labelled_pairwise hf log)
  rcases Nat.lt_trichotomy i j with hlt | heq | hlt
  · have hlabels := hpairwise i j hilt hjlt hlt
    rw [hix, hjy] at hlabels
    exact absurd hlabels (Nat.lt_irrefl n)
  · exact heq
  · have hlabels := hpairwise j i hjlt hilt hlt
    rw [hix, hjy] at hlabels
    exact absurd hlabels (Nat.lt_irrefl n)

/-- What stands in a prefix stands in the list. -/
theorem getElem?_of_isPrefix {l l' : List α} (h : l <+: l') (hi : l[i]? = some a) :
    l'[i]? = some a := by
  obtain ⟨rest, rfl⟩ := h
  rw [List.getElem?_append_left (List.getElem?_eq_some_iff.mp hi).1]
  exact hi

/-- An element of a list that is kept by a filter stands behind those kept before it. -/
theorem getElem?_filter_countP {q : α → Bool} {l : List α} (h : l[i]? = some a) (ha : q a = true) :
    (l.filter q)[(l.take i).countP q]? = some a := by
  induction l generalizing i with
  | nil => cases h
  | cons c l ih =>
    cases i with
    | zero =>
      obtain rfl : c = a := Option.some.inj h
      rw [List.take_zero, List.countP_nil, List.filter_cons_of_pos ha]
      rfl
    | succ i =>
      have hrest := ih (i := i) h
      rw [List.take_succ_cons, List.countP_cons, List.filter_cons]
      split_ifs with hc
      · rw [List.getElem?_cons_succ]
        exact hrest
      · exact hrest

/-- Elements that a predicate holds of are told apart by the number of those before them. -/
theorem countP_take_inj {q : α → Bool} {l : List α} {b : α} (hi : l[i]? = some a)
    (hj : l[j]? = some b) (ha : q a = true) (hb : q b = true)
    (h : (l.take i).countP q = (l.take j).countP q) : i = j := by
  have hless : ∀ {i j : ℕ} {a : α}, l[i]? = some a → q a = true → i < j →
      (l.take i).countP q < (l.take j).countP q := by
    intro i j a hi ha hlt
    have hsucc : (l.take (i + 1)).countP q = (l.take i).countP q + 1 := by
      rw [List.take_add_one, hi, List.countP_append]
      exact congrArg _ (List.countP_cons_of_pos ha)
    have hle : (l.take (i + 1)).countP q ≤ (l.take j).countP q :=
      (List.take_sublist_take_left hlt).countP_le
    rw [hsucc] at hle
    exact Nat.lt_of_succ_le hle
  rcases Nat.lt_trichotomy i j with hlt | heq | hlt
  · exact absurd h (Nat.ne_of_lt (hless hi ha hlt))
  · exact heq
  · exact absurd h.symm (Nat.ne_of_lt (hless hj hb hlt))

/-- Each of the elements that a predicate holds of stands somewhere. -/
theorem exists_of_lt_countP {q : α → Bool} {l : List α} (h : n < l.countP q) :
    ∃ i a, l[i]? = some a ∧ q a = true ∧ (l.take i).countP q = n := by
  induction l generalizing n with
  | nil => cases h
  | cons c l ih =>
    rw [List.countP_cons] at h
    by_cases hc : q c = true
    · rw [if_pos hc] at h
      cases n with
      | zero => exact ⟨0, c, rfl, hc, rfl⟩
      | succ n =>
        obtain ⟨i, a, hi, ha, hcount⟩ := ih (n := n) (by omega)
        refine ⟨i + 1, a, hi, ha, ?_⟩
        rw [List.take_succ_cons, List.countP_cons_of_pos hc, hcount]
    · rw [if_neg hc] at h
      obtain ⟨i, a, hi, ha, hcount⟩ := ih h
      refine ⟨i + 1, a, hi, ha, ?_⟩
      rw [List.take_succ_cons, List.countP_cons_of_neg hc, hcount]

/-- A filter that lets one element pass, for a relation keeps its elements apart. -/
theorem length_filter_eq_one {R : α → α → Prop} {q : α → Bool} {l : List α} (hl : l.Pairwise R)
    (hq : ∀ a b, q a = true → q b = true → ¬ R a b) (hmem : a ∈ l) (ha : q a = true) :
    (l.filter q).length = 1 := by
  have hkept : a ∈ l.filter q := List.mem_filter.mpr ⟨hmem, ha⟩
  have hpass : ∀ b ∈ l.filter q, q b = true := fun b hb => (List.mem_filter.mp hb).2
  have hrel := hl.filter q
  generalize l.filter q = kept at hkept hpass hrel
  match kept with
  | [] => cases hkept
  | [_] => rfl
  | b :: c :: rest =>
    refine absurd (List.rel_of_pairwise_cons hrel List.mem_cons_self) (hq b c ?_ ?_)
    · exact hpass b List.mem_cons_self
    · exact hpass c (List.mem_cons_of_mem b List.mem_cons_self)

/-- A filter that lets one element pass. -/
theorem filter_eq_singleton {q : α → Bool} {l : List α} (hl : (l.filter q).Nodup) (hmem : a ∈ l)
    (ha : q a = true) (hall : ∀ b ∈ l, q b = true → b = a) : l.filter q = [a] := by
  have hrep : l.filter q = List.replicate (l.filter q).length a :=
    List.eq_replicate_of_mem fun b hb =>
      hall b (List.mem_filter.mp hb).1 (List.mem_filter.mp hb).2
  have hpos := List.length_pos_of_mem (List.mem_filter.mpr ⟨hmem, ha⟩)
  rw [hrep, List.nodup_replicate] at hl
  rw [hrep, show (l.filter q).length = 1 by omega]
  rfl

end Labelling
