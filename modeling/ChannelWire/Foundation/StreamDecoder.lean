import Mathlib.Data.List.Basic

/-!
# Cutting a stream into items

A reader of a byte stream looks at the front of what it has: there is a whole item, or there
is not yet enough, or what is there can never become an item.  `Decoder` is that look, with
the one property a stream needs of it: a verdict other than "not yet" does not change when
more bytes arrive behind.

`Decoder.parse` repeats the look until no item is left and returns the items and the
unconsumed rest.  **Chunking is invisible** (`parse_append`): parsing a stream and then the
rest followed by more bytes is parsing the longer stream, so a reader that is fed piece by
piece and keeps only the rest sees what a reader of the whole stream sees.

`Codec` adds an encoder for the items.  A stream of encoded items is parsed back
(`parse_encodeAll_append`), the items and the rest spell the stream again
(`encodeAll_parse`), and what is read from a prefix of the stream is a prefix of the items
(`parse_prefix`).
-/

namespace StreamDecoder

universe u v

variable {β : Type u} {ι : Type v}

/-- What the front of a stream says: not enough yet, never an item, or an item and the number
of symbols it takes. -/
inductive Verdict (ι : Type v) where
  | more : Verdict ι
  | bad : Verdict ι
  | item : ι → ℕ → Verdict ι
  deriving DecidableEq

/-- A look at the front of a stream whose decided verdicts are stable under more input. -/
structure Decoder (β : Type u) (ι : Type v) where
  /-- The look. -/
  head : List β → Verdict ι
  /-- An item takes at least one symbol, and no more than there are. -/
  item_bound : ∀ {l x n}, head l = .item x n → 0 < n ∧ n ≤ l.length
  /-- An item at the front stays there. -/
  item_stable : ∀ {l x n}, head l = .item x n → ∀ r, head (l ++ r) = .item x n
  /-- A front that is no item never becomes one. -/
  bad_stable : ∀ {l}, head l = .bad → ∀ r, head (l ++ r) = .bad

namespace Decoder

variable (D : Decoder β ι)

/-- At most `n` items from the front, and what is left. -/
def run : ℕ → List β → List ι × List β
  | 0, l => ([], l)
  | n + 1, l =>
    match D.head l with
    | .item x k => (x :: (run n (l.drop k)).1, (run n (l.drop k)).2)
    | _ => ([], l)

/-- All items of a stream, and its unconsumed rest. -/
def parse (l : List β) : List ι × List β := D.run l.length l

variable {D}

/-- More steps than symbols change nothing. -/
theorem run_eq_run {m n : ℕ} {l : List β} (hm : l.length ≤ m) (hn : l.length ≤ n) :
    D.run m l = D.run n l := by
  induction m generalizing n l with
  | zero =>
    have hl : l = [] := List.eq_nil_of_length_eq_zero (by omega)
    subst hl
    cases n with
    | zero => rfl
    | succ n =>
      cases hh : D.head [] with
      | item x k =>
        have hb := D.item_bound hh
        simp only [List.length_nil] at hb
        omega
      | more => simp only [run, hh]
      | bad => simp only [run, hh]
  | succ m ih =>
    cases hh : D.head l with
    | item x k =>
      have hb := D.item_bound hh
      cases n with
      | zero => omega
      | succ n =>
        have hd : (l.drop k).length = l.length - k := List.length_drop
        simp only [run, hh]
        rw [ih (n := n) (by omega) (by omega)]
    | more => cases n <;> simp only [run, hh]
    | bad => cases n <;> simp only [run, hh]

theorem parse_of_item {l : List β} {x : ι} {k : ℕ} (h : D.head l = .item x k) :
    D.parse l = (x :: (D.parse (l.drop k)).1, (D.parse (l.drop k)).2) := by
  have hb := D.item_bound h
  have hd : (l.drop k).length = l.length - k := List.length_drop
  obtain ⟨m, hm⟩ : ∃ m, l.length = m + 1 := ⟨l.length - 1, by omega⟩
  rw [parse, hm]
  simp only [run, h]
  rw [run_eq_run (n := (l.drop k).length) (by omega) (Nat.le_refl _)]
  rfl

theorem parse_of_not_item {l : List β} (h : ∀ x k, D.head l ≠ .item x k) :
    D.parse l = ([], l) := by
  rw [parse]
  cases hl : l.length with
  | zero => rfl
  | succ m =>
    cases hh : D.head l with
    | item x k => exact absurd hh (h x k)
    | more => simp only [run, hh]
    | bad => simp only [run, hh]

/-- **Induction along a stream**: either no item is in front, or the stream continues behind
the item. -/
theorem parse_induction {P : List β → Prop} (hstop : ∀ l, (∀ x k, D.head l ≠ .item x k) → P l)
    (hitem : ∀ l x k, D.head l = .item x k → P (l.drop k) → P l) (l : List β) : P l := by
  induction hn : l.length using Nat.strongRecOn generalizing l with
  | ind n ih =>
    by_cases hl : ∃ x k, D.head l = .item x k
    · obtain ⟨x, k, h⟩ := hl
      have hb := D.item_bound h
      exact hitem l x k h (ih _ (by rw [List.length_drop]; omega) _ rfl)
    · exact hstop l fun x k h => hl ⟨x, k, h⟩

/-- **Chunking is invisible.**  Parsing a stream to which more is appended yields the items
already found, then those of the old rest followed by the new part. -/
theorem parse_append (l r : List β) :
    D.parse (l ++ r) =
      ((D.parse l).1 ++ (D.parse ((D.parse l).2 ++ r)).1, (D.parse ((D.parse l).2 ++ r)).2) := by
  induction l using parse_induction (D := D) with
  | hstop l h =>
    rw [parse_of_not_item h]
    rfl
  | hitem l x k h ih =>
    have hb := D.item_bound h
    rw [parse_of_item h, parse_of_item (D.item_stable h r), List.drop_append_of_le_length hb.2,
      ih, List.cons_append]

/-- A stream that was given up on stays so: nothing behind is read. -/
theorem parse_append_of_bad {l : List β} (h : D.head (D.parse l).2 = .bad) (r : List β) :
    D.parse (l ++ r) = ((D.parse l).1, (D.parse l).2 ++ r) := by
  have hbad := D.bad_stable h r
  have hstop : D.parse ((D.parse l).2 ++ r) = ([], (D.parse l).2 ++ r) :=
    parse_of_not_item fun x k hx => by
      rw [hbad] at hx
      cases hx
  rw [parse_append, hstop, List.append_nil]

end Decoder

/-- A decoder together with the encoder of its items; `Valid` are the items it reads. -/
structure Codec (β : Type u) (ι : Type v) extends Decoder β ι where
  /-- The spelling of an item. -/
  encode : ι → List β
  /-- The items that can be read back. -/
  Valid : ι → Prop
  /-- An encoded item in front is read back. -/
  head_encode : ∀ {x}, Valid x → ∀ r, head (encode x ++ r) = .item x (encode x).length
  /-- An item that is read is valid and was spelt by the encoder. -/
  encode_head : ∀ {l x n}, head l = .item x n → Valid x ∧ l.take n = encode x

namespace Codec

variable (C : Codec β ι)

/-- The spelling of a list of items. -/
def encodeAll (xs : List ι) : List β := (xs.map C.encode).flatten

@[simp] theorem encodeAll_nil : C.encodeAll [] = [] := rfl

@[simp] theorem encodeAll_cons (x : ι) (xs : List ι) :
    C.encodeAll (x :: xs) = C.encode x ++ C.encodeAll xs := by
  rw [encodeAll, List.map_cons, List.flatten_cons]
  rfl

@[simp] theorem encodeAll_append (xs ys : List ι) :
    C.encodeAll (xs ++ ys) = C.encodeAll xs ++ C.encodeAll ys := by
  rw [encodeAll, List.map_append, List.flatten_append]
  rfl

variable {C}

/-- **Round trip**: encoded items in front of a stream are read back, then the stream. -/
theorem parse_encodeAll_append {xs : List ι} (h : ∀ x ∈ xs, C.Valid x) (r : List β) :
    C.parse (C.encodeAll xs ++ r) = (xs ++ (C.parse r).1, (C.parse r).2) := by
  induction xs with
  | nil => rfl
  | cons x xs ih =>
    have hx := C.head_encode (h x List.mem_cons_self) (C.encodeAll xs ++ r)
    rw [encodeAll_cons, List.append_assoc, Decoder.parse_of_item hx, List.drop_left,
      ih fun y hy => h y (List.mem_cons_of_mem x hy), List.cons_append]

theorem parse_nil : C.parse [] = ([], []) := rfl

theorem parse_encodeAll {xs : List ι} (h : ∀ x ∈ xs, C.Valid x) :
    C.parse (C.encodeAll xs) = (xs, []) := by
  have hp := parse_encodeAll_append h []
  rwa [List.append_nil, parse_nil, List.append_nil] at hp

/-- The items of a stream and its rest spell the stream. -/
theorem encodeAll_parse (l : List β) : C.encodeAll (C.parse l).1 ++ (C.parse l).2 = l := by
  induction l using Decoder.parse_induction (D := C.toDecoder) with
  | hstop l h => rw [Decoder.parse_of_not_item h, encodeAll_nil, List.nil_append]
  | hitem l x k h ih =>
    rw [Decoder.parse_of_item h, encodeAll_cons, List.append_assoc, ih, ← (C.encode_head h).2,
      List.take_append_drop]

theorem valid_of_mem_parse (l : List β) : ∀ x ∈ (C.parse l).1, C.Valid x := by
  induction l using Decoder.parse_induction (D := C.toDecoder) with
  | hstop l h =>
    rw [Decoder.parse_of_not_item h]
    intro x hx
    cases hx
  | hitem l x k h ih =>
    rw [Decoder.parse_of_item h]
    intro y hy
    rcases List.mem_cons.mp hy with rfl | hy
    · exact (C.encode_head h).1
    · exact ih y hy

/-- **A reader is never ahead**: what a prefix of a stream of items holds is a prefix of the
items. -/
theorem parse_prefix {xs : List ι} (h : ∀ x ∈ xs, C.Valid x) {l : List β}
    (hl : l <+: C.encodeAll xs) : (C.parse l).1 <+: xs := by
  obtain ⟨r, hr⟩ := hl
  have hp := Decoder.parse_append (D := C.toDecoder) l r
  rw [hr, parse_encodeAll h] at hp
  exact ⟨_, (congrArg Prod.fst hp).symm⟩

end Codec

end StreamDecoder
