import Mathlib.Data.List.Basic
import Mathlib.Data.List.Nodup
import Mathlib.Data.List.Perm.Subperm
import Mathlib.Logic.Function.Basic

/-!
# A singly linked queue with a head and a tail pointer

The classic C queue: cells hold a value and a pointer to the next cell, the owner keeps a
pointer to the first cell and one to the last, values are appended behind the last cell and
taken from the first.  Nothing but discipline keeps the two pointers in step, and this file
is that discipline, written down once.

`Raw` is the representation, with the operations as a C programmer writes them: each reads
and writes pointers and knows nothing of a list.  `WellFormed q l` says that the cells
reached from `q.head` are exactly those of `l`, in order, that `q.tail` is the last of them,
and that no other cell is allocated.  `Queue` bundles a representation with that fact, so a
queue whose pointers disagree cannot be built.

What a client reads is `Queue.toList` and one equation for each operation
(`toList_push`, `toList_pop`, `toList_modifyFront`, `toList_clear`); the pointers stay here.
-/

namespace LinkedQueue

universe u

/-- One cell: a value and the address of the next cell, `none` being the null pointer. -/
structure Node (α : Type u) where
  value : α
  next : Option ℕ

/-- The representation: the allocated cells, the lowest address never handed out, and the
two pointers. -/
structure Raw (α : Type u) where
  cells : ℕ → Option (Node α)
  brk : ℕ
  head : Option ℕ
  tail : Option ℕ

variable {α : Type u}

namespace Raw

/-- No cell, both pointers null. -/
def empty : Raw α := ⟨fun _ => none, 0, none, none⟩

/-- Append: a fresh cell is linked behind the last one, or becomes the first. -/
def push (q : Raw α) (x : α) : Raw α :=
  let cells := Function.update q.cells q.brk (some ⟨x, none⟩)
  match q.tail with
  | some t =>
    { cells := Function.update cells t ((cells t).map fun n => { n with next := some q.brk })
      brk := q.brk + 1
      head := q.head
      tail := some q.brk }
  | none => { cells := cells, brk := q.brk + 1, head := some q.brk, tail := some q.brk }

/-- Unlink and free the first cell; the tail pointer is cleared with the last cell. -/
def pop (q : Raw α) : Raw α :=
  match q.head with
  | none => q
  | some a =>
    match q.cells a with
    | none => q
    | some n =>
      { q with
        cells := Function.update q.cells a none
        head := n.next
        tail := if n.next = none then none else q.tail }

/-- Overwrite the value of the first cell in place. -/
def modifyFront (q : Raw α) (f : α → α) : Raw α :=
  match q.head with
  | none => q
  | some a =>
    { q with cells := Function.update q.cells a ((q.cells a).map fun n => { n with value := f n.value }) }

/-- Free the cells reached from `p`, at most `n` of them: the next pointer is read before the
cell is freed. -/
def freeFrom : ℕ → Option ℕ → (ℕ → Option (Node α)) → ℕ → Option (Node α)
  | 0, _, m => m
  | _ + 1, none, m => m
  | n + 1, some a, m =>
    match m a with
    | none => m
    | some c => freeFrom n c.next (Function.update m a none)

/-- Free every cell and clear both pointers. -/
def clear (q : Raw α) : Raw α :=
  { q with cells := freeFrom q.brk q.head q.cells, head := none, tail := none }

/-- The values met when following the next pointers from `p`, at most `n` of them. -/
def walk (m : ℕ → Option (Node α)) : ℕ → Option ℕ → List α
  | 0, _ => []
  | _ + 1, none => []
  | n + 1, some a =>
    match m a with
    | none => []
    | some c => c.value :: walk m n c.next

end Raw

/-! ## Chains of cells -/

/-- Following the next pointers from a pointer meets the listed cells and ends at null. -/
def Chain (m : ℕ → Option (Node α)) : Option ℕ → List (ℕ × α) → Prop
  | p, [] => p = none
  | p, (a, x) :: l => p = some a ∧ ∃ nx, m a = some ⟨x, nx⟩ ∧ Chain m nx l

@[simp] theorem chain_nil {m : ℕ → Option (Node α)} {p : Option ℕ} :
    Chain m p [] ↔ p = none := Iff.rfl

@[simp] theorem chain_cons {m : ℕ → Option (Node α)} {p : Option ℕ} {a : ℕ} {x : α}
    {l : List (ℕ × α)} :
    Chain m p ((a, x) :: l) ↔ p = some a ∧ ∃ nx, m a = some ⟨x, nx⟩ ∧ Chain m nx l := Iff.rfl

/-- **Frame.**  Writing a cell that is not on the chain leaves the chain as it is. -/
theorem chain_update_of_notMem {m : ℕ → Option (Node α)} {a : ℕ} {v : Option (Node α)} :
    ∀ {l : List (ℕ × α)} {p : Option ℕ}, a ∉ l.map Prod.fst → Chain m p l →
      Chain (Function.update m a v) p l
  | [], _, _, h => h
  | (b, x) :: l, _, ha, h => by
    obtain ⟨hp, nx, hb, hl⟩ := h
    rw [List.map_cons, List.mem_cons, not_or] at ha
    refine ⟨hp, nx, ?_, chain_update_of_notMem ha.2 hl⟩
    rw [Function.update_of_ne (Ne.symm ha.1)]
    exact hb

/-- Linking a cell `a` behind the last cell `t` of a chain. -/
theorem chain_link_last {m : ℕ → Option (Node α)} {t a : ℕ} {y x : α} :
    ∀ {l : List (ℕ × α)} {p : Option ℕ}, Chain m p (l ++ [(t, y)]) →
      t ∉ l.map Prod.fst → a ≠ t → m a = some ⟨x, none⟩ →
      Chain (Function.update m t ((m t).map fun n => { n with next := some a })) p
        (l ++ [(t, y), (a, x)])
  | [], _, h, _, hat, ha => by
    obtain ⟨hp, nx, ht, -⟩ := h
    refine ⟨hp, some a, ?_, rfl, none, ?_, rfl⟩
    · rw [Function.update_self, ht]
      rfl
    · rw [Function.update_of_ne hat]
      exact ha
  | (b, z) :: l, _, h, hb, hat, ha => by
    obtain ⟨hp, nx, hbz, hl⟩ := h
    rw [List.map_cons, List.mem_cons, not_or] at hb
    refine ⟨hp, nx, ?_, chain_link_last hl hb.2 hat ha⟩
    rw [Function.update_of_ne (Ne.symm hb.1)]
    exact hbz

/-- Walking a chain with enough steps reads its values. -/
theorem walk_eq_of_chain {m : ℕ → Option (Node α)} :
    ∀ {l : List (ℕ × α)} {p : Option ℕ} {n : ℕ}, Chain m p l → l.length ≤ n →
      Raw.walk m n p = l.map Prod.snd
  | [], p, n, h, _ => by
    rw [chain_nil] at h
    subst h
    cases n <;> rfl
  | (a, x) :: l, p, n, h, hn => by
    obtain ⟨rfl, nx, ha, hl⟩ := h
    cases n with
    | zero => simp at hn
    | succ n =>
      have hl' := walk_eq_of_chain hl (n := n) (by simpa using hn)
      simp only [Raw.walk, ha, hl', List.map_cons]

/-- Freeing along a chain frees exactly the cells of the chain. -/
theorem freeFrom_eq_of_chain {m : ℕ → Option (Node α)} :
    ∀ {l : List (ℕ × α)} {p : Option ℕ} {n : ℕ}, Chain m p l → l.length ≤ n →
      (l.map Prod.fst).Nodup →
      ∀ b, Raw.freeFrom n p m b = if b ∈ l.map Prod.fst then none else m b
  | [], p, n, h, _, _, b => by
    rw [chain_nil] at h
    subst h
    cases n <;> rfl
  | (a, x) :: l, p, n, h, hn, hnd, b => by
    obtain ⟨rfl, nx, ha, hl⟩ := h
    rw [List.map_cons, List.nodup_cons] at hnd
    cases n with
    | zero => simp at hn
    | succ n =>
      have hl' := chain_update_of_notMem (v := none) hnd.1 hl
      simp only [Raw.freeFrom, ha]
      rw [freeFrom_eq_of_chain hl' (by simpa using hn) hnd.2 b, List.map_cons]
      by_cases hba : b = a
      · subst hba
        simp
      · rw [Function.update_of_ne hba]
        simp only [List.mem_cons, hba, false_or]

/-! ## Well-formed representations -/

/-- The cells of the representation are those of `l`, in order: the head pointer starts the
chain, the tail pointer is its last cell, addresses are distinct and were handed out, and no
other cell is allocated. -/
structure WellFormed (q : Raw α) (l : List (ℕ × α)) : Prop where
  chain : Chain q.cells q.head l
  tail_eq : q.tail = (l.map Prod.fst).getLast?
  nodup : (l.map Prod.fst).Nodup
  lt_brk : ∀ a ∈ l.map Prod.fst, a < q.brk
  owned : ∀ a, q.cells a ≠ none → a ∈ l.map Prod.fst

theorem wellFormed_empty : WellFormed (Raw.empty : Raw α) [] :=
  ⟨rfl, rfl, List.nodup_nil, by simp, by simp [Raw.empty]⟩

/-- Distinct addresses below `brk` are at most `brk` many, so `brk` steps walk the queue. -/
theorem WellFormed.length_le {q : Raw α} {l : List (ℕ × α)} (h : WellFormed q l) :
    l.length ≤ q.brk := by
  have hsub : l.map Prod.fst ⊆ List.range q.brk := fun a ha =>
    List.mem_range.mpr (h.lt_brk a ha)
  have hle := (List.subperm_of_subset h.nodup hsub).length_le
  rwa [List.length_map, List.length_range] at hle

theorem WellFormed.push {q : Raw α} {l : List (ℕ × α)} (h : WellFormed q l) (x : α) :
    WellFormed (q.push x) (l ++ [(q.brk, x)]) := by
  have hbrk : q.brk ∉ l.map Prod.fst := fun hm => Nat.lt_irrefl _ (h.lt_brk _ hm)
  have hchain : Chain (Function.update q.cells q.brk (some ⟨x, none⟩)) q.head l :=
    chain_update_of_notMem hbrk h.chain
  have hnodup : ((l ++ [(q.brk, x)]).map Prod.fst).Nodup := by
    rw [List.map_append, List.nodup_append]
    refine ⟨h.nodup, by simp, ?_⟩
    rintro a ha b hb rfl
    rw [List.map_singleton, List.mem_singleton] at hb
    rw [hb] at ha
    exact hbrk ha
  have hlt : ∀ a ∈ (l ++ [(q.brk, x)]).map Prod.fst, a < q.brk + 1 := by
    intro a ha
    rw [List.map_append, List.mem_append] at ha
    rcases ha with ha | ha
    · exact Nat.lt_succ_of_lt (h.lt_brk a ha)
    · rw [List.map_singleton, List.mem_singleton] at ha
      exact ha ▸ Nat.lt_succ_self _
  rcases List.eq_nil_or_concat l with rfl | ⟨l₀, ⟨t, y⟩, rfl⟩
  · have ht : q.tail = none := h.tail_eq
    have hpush : q.push x = ⟨Function.update q.cells q.brk (some ⟨x, none⟩), q.brk + 1,
        some q.brk, some q.brk⟩ := by
      simp only [Raw.push, ht]
    rw [hpush]
    refine ⟨⟨rfl, none, Function.update_self .., rfl⟩, rfl, hnodup, hlt, ?_⟩
    intro a ha
    by_cases haq : a = q.brk
    · simp [haq]
    · exact absurd (h.owned a (by simpa [Function.update_of_ne haq] using ha)) (by simp)
  · rw [List.concat_eq_append] at *
    have ht : q.tail = some t := by
      rw [h.tail_eq]
      simp
    have htl : t ∉ l₀.map Prod.fst := by
      have hn := h.nodup
      rw [List.map_append, List.nodup_append] at hn
      exact fun hm => hn.2.2 t hm t (by simp) rfl
    have hne : q.brk ≠ t := fun he => hbrk (by simp [he])
    simp only [Raw.push, ht]
    refine ⟨?_, by simp, hnodup, hlt, ?_⟩
    · have hlink := chain_link_last hchain htl hne (Function.update_self ..)
      simpa using hlink
    · intro a ha
      by_cases haq : a = q.brk
      · simp [haq]
      · by_cases hat : a = t
        · simp [hat]
        · have hmem := h.owned a (by
            simpa [Function.update_of_ne hat, Function.update_of_ne haq] using ha)
          rw [List.map_append, List.mem_append]
          exact Or.inl hmem

theorem WellFormed.pop {q : Raw α} {a : ℕ} {x : α} {l : List (ℕ × α)}
    (h : WellFormed q ((a, x) :: l)) : WellFormed q.pop l := by
  obtain ⟨hhead, nx, ha, hl⟩ := h.chain
  have hnd := h.nodup
  rw [List.map_cons, List.nodup_cons] at hnd
  have hpop : q.pop = { q with
      cells := Function.update q.cells a none
      head := nx
      tail := if nx = none then none else q.tail } := by
    simp only [Raw.pop, hhead, ha]
  rw [hpop]
  refine ⟨chain_update_of_notMem hnd.1 hl, ?_, hnd.2, fun b hb => h.lt_brk b (by simp [hb]), ?_⟩
  · cases l with
    | nil =>
      rw [chain_nil] at hl
      simp [hl]
    | cons bz l =>
      obtain ⟨b, z⟩ := bz
      have hnx : nx = some b := hl.1
      simp [hnx, h.tail_eq]
  · intro b hb
    have hba : b ≠ a := by
      rintro rfl
      simp at hb
    have hmem := h.owned b (by simpa [Function.update_of_ne hba] using hb)
    rw [List.map_cons, List.mem_cons] at hmem
    exact hmem.resolve_left hba

theorem WellFormed.modifyFront {q : Raw α} {a : ℕ} {x : α} {l : List (ℕ × α)}
    (h : WellFormed q ((a, x) :: l)) (f : α → α) :
    WellFormed (q.modifyFront f) ((a, f x) :: l) := by
  obtain ⟨hhead, nx, ha, hl⟩ := h.chain
  have hnd := h.nodup
  rw [List.map_cons, List.nodup_cons] at hnd
  have hmod : q.modifyFront f =
      { q with cells := Function.update q.cells a (some ⟨f x, nx⟩) } := by
    simp only [Raw.modifyFront, hhead, ha, Option.map_some]
  rw [hmod]
  refine ⟨⟨hhead, nx, Function.update_self .., chain_update_of_notMem hnd.1 hl⟩, ?_, h.nodup,
    h.lt_brk, ?_⟩
  · simp only [h.tail_eq, List.map_cons]
  · intro b hb
    by_cases hba : b = a
    · simp [hba]
    · exact h.owned b (by simpa [Function.update_of_ne hba] using hb)

/-- **Clearing frees everything.**  No cell of the queue stays allocated. -/
theorem WellFormed.cells_clear {q : Raw α} {l : List (ℕ × α)} (h : WellFormed q l) (b : ℕ) :
    q.clear.cells b = none := by
  have hfree := freeFrom_eq_of_chain h.chain h.length_le h.nodup b
  rw [show q.clear.cells b = Raw.freeFrom q.brk q.head q.cells b from rfl, hfree]
  by_cases hb : b ∈ l.map Prod.fst
  · rw [if_pos hb]
  · rw [if_neg hb]
    by_contra hne
    exact hb (h.owned b hne)

theorem WellFormed.clear {q : Raw α} {l : List (ℕ × α)} (h : WellFormed q l) :
    WellFormed q.clear [] :=
  ⟨rfl, rfl, List.nodup_nil, by simp, fun a ha => absurd (h.cells_clear a) ha⟩

/-! ## The bundled queue -/

/-- A queue: a representation together with the fact that its pointers are in step. -/
structure Queue (α : Type u) where
  raw : Raw α
  wf : ∃ l, WellFormed raw l

namespace Queue

/-- The queued values, first to last, read by following the pointers. -/
def toList (q : Queue α) : List α := Raw.walk q.raw.cells q.raw.brk q.raw.head

theorem toList_eq {q : Queue α} {l : List (ℕ × α)} (h : WellFormed q.raw l) :
    q.toList = l.map Prod.snd :=
  walk_eq_of_chain h.chain h.length_le

def empty : Queue α := ⟨.empty, [], wellFormed_empty⟩

instance : Inhabited (Queue α) := ⟨empty⟩

def push (q : Queue α) (x : α) : Queue α :=
  ⟨q.raw.push x, let ⟨l, h⟩ := q.wf; ⟨l ++ [(q.raw.brk, x)], h.push x⟩⟩

/-- A representation whose queue is empty has a null head pointer. -/
theorem head_eq_none {q : Raw α} (h : WellFormed q []) : q.head = none := h.chain

theorem exists_wellFormed_pop (q : Queue α) : ∃ l, WellFormed q.raw.pop l := by
  obtain ⟨l, h⟩ := q.wf
  cases l with
  | nil =>
    refine ⟨[], ?_⟩
    have hq : q.raw.pop = q.raw := by simp only [Raw.pop, head_eq_none h]
    rw [hq]
    exact h
  | cons ax l => exact ⟨l, h.pop⟩

def pop (q : Queue α) : Queue α := ⟨q.raw.pop, q.exists_wellFormed_pop⟩

theorem exists_wellFormed_modifyFront (q : Queue α) (f : α → α) :
    ∃ l, WellFormed (q.raw.modifyFront f) l := by
  obtain ⟨l, h⟩ := q.wf
  cases l with
  | nil =>
    refine ⟨[], ?_⟩
    have hq : q.raw.modifyFront f = q.raw := by simp only [Raw.modifyFront, head_eq_none h]
    rw [hq]
    exact h
  | cons ax l => exact ⟨_, h.modifyFront f⟩

def modifyFront (q : Queue α) (f : α → α) : Queue α :=
  ⟨q.raw.modifyFront f, q.exists_wellFormed_modifyFront f⟩

def clear (q : Queue α) : Queue α := ⟨q.raw.clear, let ⟨_, h⟩ := q.wf; ⟨[], h.clear⟩⟩

@[simp] theorem toList_empty : (empty : Queue α).toList = [] := rfl

@[simp] theorem toList_push (q : Queue α) (x : α) : (q.push x).toList = q.toList ++ [x] := by
  obtain ⟨l, h⟩ := q.wf
  rw [toList_eq h, toList_eq (q := q.push x) (h.push x), List.map_append]
  rfl

@[simp] theorem toList_pop (q : Queue α) : q.pop.toList = q.toList.tail := by
  obtain ⟨l, h⟩ := q.wf
  rw [toList_eq h]
  cases l with
  | nil =>
    have hq : q.pop.raw = q.raw := by simp only [pop, Raw.pop, head_eq_none h]
    rw [toList, hq]
    exact toList_eq h
  | cons ax l => exact toList_eq (q := q.pop) h.pop

@[simp] theorem toList_modifyFront (q : Queue α) (f : α → α) :
    (q.modifyFront f).toList = q.toList.modifyHead f := by
  obtain ⟨l, h⟩ := q.wf
  rw [toList_eq h]
  cases l with
  | nil =>
    have hq : (q.modifyFront f).raw = q.raw := by
      simp only [modifyFront, Raw.modifyFront, head_eq_none h]
    rw [toList, hq]
    exact toList_eq h
  | cons ax l => exact toList_eq (q := q.modifyFront f) (h.modifyFront f)

@[simp] theorem toList_clear (q : Queue α) : q.clear.toList = [] := by
  obtain ⟨l, h⟩ := q.wf
  exact toList_eq (q := q.clear) h.clear

/-! ### What the two pointers say -/

/-- The tail pointer is null exactly when the head pointer is. -/
theorem head_eq_none_iff_tail (q : Queue α) : q.raw.head = none ↔ q.raw.tail = none := by
  obtain ⟨l, h⟩ := q.wf
  rw [h.tail_eq]
  cases l with
  | nil => simp [head_eq_none h]
  | cons ax l => simp [h.chain.1]

end Queue

end LinkedQueue
