import Mathlib.Data.List.Basic

/-!
# Pairing requests and replies by their position

A client that sends requests and keeps them in a queue until their replies come can pair the two
by position alone, if the replies come in the order of the requests: the oldest pending request
is the one that the next reply answers.

`Pairs sent replies pending paired` says that the queue and the pairs are as they should be; it
is kept by sending (`Pairs.push`), and by a reply that takes the head of the queue (`Pairs.pop`).
-/

namespace FifoPairing

universe u v

variable {α : Type u} {β : Type v}

/-- A request that is sent after the last answered one does not change the pairs. -/
theorem zip_concat_left {sent : List α} {replies : List β} (h : replies.length ≤ sent.length)
    (a : α) : (sent ++ [a]).zip replies = sent.zip replies := by
  induction replies generalizing sent with
  | nil => rw [List.zip_nil_right, List.zip_nil_right]
  | cons b replies ih =>
    cases sent with
    | nil => exact absurd h (Nat.not_succ_le_zero _)
    | cons c sent => rw [List.cons_append, List.zip_cons_cons, List.zip_cons_cons,
        ih (Nat.le_of_succ_le_succ h)]

/-- A reply is paired with the first request that has none. -/
theorem zip_concat_right {sent : List α} {replies : List β} {a : α} {rest : List α}
    (h : sent.drop replies.length = a :: rest) (b : β) :
    sent.zip (replies ++ [b]) = sent.zip replies ++ [(a, b)] := by
  induction replies generalizing sent with
  | nil =>
    obtain rfl : sent = a :: rest := h
    rw [List.nil_append, List.zip_cons_cons, List.zip_nil_right, List.zip_nil_right]
    rfl
  | cons c replies ih =>
    cases sent with
    | nil => cases h
    | cons d sent => rw [List.cons_append, List.zip_cons_cons, List.zip_cons_cons, List.cons_append,
        ih h]

/-- Of the requests `sent`, the first are paired with the `replies`, and the others pend. -/
structure Pairs (sent : List α) (replies : List β) (pending : List α) (paired : List (α × β)) :
    Prop where
  length_le : replies.length ≤ sent.length
  pending_eq : pending = sent.drop replies.length
  paired_eq : paired = sent.zip replies

namespace Pairs

variable {sent : List α} {replies : List β} {pending : List α} {paired : List (α × β)}

theorem nil : Pairs ([] : List α) ([] : List β) [] [] := ⟨Nat.le_refl _, rfl, rfl⟩

/-- A request is sent. -/
theorem push (h : Pairs sent replies pending paired) (a : α) :
    Pairs (sent ++ [a]) replies (pending ++ [a]) paired := by
  refine ⟨?_, ?_, ?_⟩
  · rw [List.length_append]
    exact Nat.le_add_right_of_le h.length_le
  · rw [h.pending_eq, List.drop_append_of_le_length h.length_le]
  · rw [h.paired_eq, zip_concat_left h.length_le]

/-- **A reply answers the oldest pending request.** -/
theorem pop (h : Pairs sent replies pending paired) (b : β)
    (hlt : replies.length < sent.length) :
    ∃ a rest, pending = a :: rest ∧ Pairs sent (replies ++ [b]) rest (paired ++ [(a, b)]) := by
  have hdrop := List.drop_eq_getElem_cons hlt
  refine ⟨sent[replies.length], sent.drop (replies.length + 1), ?_, ?_, ?_, ?_⟩
  · rw [h.pending_eq, hdrop]
  · rw [List.length_append]
    exact hlt
  · rw [List.length_append]
    rfl
  · rw [h.paired_eq, zip_concat_right hdrop]

end Pairs

end FifoPairing
