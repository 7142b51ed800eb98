import ChannelWire.Protocol.Wire

/-!
# Payloads made of strings

A payload of strings is a stream of string fields, so the reading of one is a
`StreamDecoder.Codec` as the reading of frames is (`stringFields`).  The loop of the Python
function `decode_strings`, before it decodes the bytes of a string, is `splitStrings`: it
returns the strings of a payload that has nothing behind them (`splitStrings_eq_some_iff`).
-/

namespace ChannelWire

/-- The string field in front of a payload. -/
def stringHead : Bytes → StreamDecoder.Verdict Bytes
  | x :: y :: r =>
    let length := fromBe [x, y]
    if r.length < length then .more else .item (r.take length) (2 + length)
  | _ => .more

theorem exists_cons_cons_of_item {l v : Bytes} {n : ℕ} (h : stringHead l = .item v n) :
    ∃ x y r, l = x :: y :: r := by
  match l, h with
  | x :: y :: r, _ => exact ⟨x, y, r, rfl⟩

theorem stringHead_item {l v : Bytes} {n : ℕ} (h : stringHead l = .item v n) :
    v.length < 65536 ∧ n = 2 + v.length ∧ n ≤ l.length ∧ l.take n = stringField v := by
  match l, h with
  | x :: y :: r, h =>
    simp only [stringHead] at h
    split_ifs at h with hlen
    injection h with hv hn
    have hlength : v.length = fromBe [x, y] := by
      rw [← hv, List.length_take]
      omega
    refine ⟨by rw [hlength]; exact fromBe_pair_lt x y, by omega, ?_, ?_⟩
    · simp only [List.length_cons]
      omega
    · rw [stringField, hlength, be16_fromBe, ← hn, ← hv, Nat.add_comm]
      rfl

theorem stringHead_append {l : Bytes} (r : Bytes) {v : Bytes} {n : ℕ}
    (h : stringHead l = .item v n) : stringHead (l ++ r) = .item v n := by
  match l, h with
  | x :: y :: q, h =>
    simp only [List.cons_append, stringHead] at h ⊢
    split_ifs at h with hlen
    rw [if_neg (by rw [List.length_append]; omega), List.take_append_of_le_length (by omega)]
    exact h

theorem stringHead_encode {v : Bytes} (hv : v.length < 65536) (r : Bytes) :
    stringHead (stringField v ++ r) = .item v (stringField v).length := by
  have hnum := fromBe_be16 hv
  rw [length_stringField, stringField, List.append_assoc]
  unfold be16 at hnum ⊢
  simp only [List.cons_append, List.nil_append, stringHead, hnum]
  rw [if_neg (by rw [List.length_append]; omega), List.take_left, Nat.add_comm]

/-- The string fields of a payload. -/
def stringFields : StreamDecoder.Codec UInt8 Bytes where
  head := stringHead
  item_bound h := by
    obtain ⟨-, hn, hle, -⟩ := stringHead_item h
    exact ⟨by omega, hle⟩
  item_stable h r := stringHead_append r h
  bad_stable := by
    intro l h
    match l, h with
    | x :: y :: r, h =>
      simp only [stringHead] at h
      split_ifs at h
  encode := stringField
  Valid v := v.length < 65536
  head_encode hv r := stringHead_encode hv r
  encode_head h := ⟨(stringHead_item h).1, (stringHead_item h).2.2.2⟩

theorem stringFields_encodeAll (values : List Bytes) :
    stringFields.encodeAll values = (values.map stringField).flatten := rfl

/-- The loop of `decode_strings`, at most `n` times round: what it appends to `values`, with
the decoding of the bytes left to the caller; `none` stands for a `ValueError`. -/
def splitStringsLoop : ℕ → Bytes → Option (List Bytes)
  | _, [] => some []
  | 0, _ => none
  | _ + 1, [_] => none
  | n + 1, x :: y :: payload =>
    let length := fromBe [x, y]
    if payload.length < length then none
    else (splitStringsLoop n (payload.drop length)).map (payload.take length :: ·)

/-- `decode_strings` without the decoding of the bytes. -/
def splitStrings (payload : Bytes) : Option (List Bytes) := splitStringsLoop payload.length payload

theorem splitStringsLoop_eq {n : ℕ} {l : Bytes} (hn : l.length ≤ n) :
    splitStringsLoop n l =
      if (stringFields.parse l).2 = [] then some (stringFields.parse l).1 else none := by
  induction l using StreamDecoder.Decoder.parse_induction (D := stringFields.toDecoder)
    generalizing n with
  | hstop l h =>
    rw [StreamDecoder.Decoder.parse_of_not_item h]
    match l, n, hn, h with
    | [], _, _, _ => rw [splitStringsLoop, if_pos rfl]
    | [x], n + 1, _, _ => rw [splitStringsLoop, if_neg (by simp)]
    | x :: y :: r, n + 1, _, h =>
      have hlen : r.length < fromBe [x, y] := by
        by_contra hlen
        exact h _ _ (if_neg hlen)
      simp only [splitStringsLoop]
      rw [if_pos hlen, if_neg (by simp)]
  | hitem l v k h ih =>
    rw [StreamDecoder.Decoder.parse_of_item h]
    have h' : stringHead l = .item v k := h
    obtain ⟨x, y, r, rfl⟩ := exists_cons_cons_of_item h'
    simp only [stringHead] at h'
    split_ifs at h' with hlen
    injection h' with hv hk
    have hdrop : (x :: y :: r).drop k = r.drop (fromBe [x, y]) := by
      rw [← hk, ← List.drop_drop]
      rfl
    simp only [List.length_cons] at hn
    obtain ⟨m, rfl⟩ : ∃ m, n = m + 1 := ⟨n - 1, by omega⟩
    rw [hdrop] at ih ⊢
    simp only [splitStringsLoop]
    rw [if_neg hlen, ih (by rw [List.length_drop]; omega), hv]
    split_ifs <;> rfl

/-- **The strings of a payload** are those whose fields, one after the other, are the payload. -/
theorem splitStrings_eq_some_iff {payload : Bytes} {values : List Bytes} :
    splitStrings payload = some values ↔
      payload = (values.map stringField).flatten ∧ ∀ v ∈ values, v.length < 65536 := by
  rw [splitStrings, splitStringsLoop_eq (Nat.le_refl _)]
  constructor
  · intro h
    split_ifs at h with hrest
    have hspell := StreamDecoder.Codec.encodeAll_parse (C := stringFields) payload
    rw [hrest, List.append_nil, Option.some.inj h, stringFields_encodeAll] at hspell
    refine ⟨hspell.symm, ?_⟩
    rw [← Option.some.inj h]
    exact StreamDecoder.Codec.valid_of_mem_parse (C := stringFields) payload
  · rintro ⟨rfl, hvalid⟩
    rw [← stringFields_encodeAll, StreamDecoder.Codec.parse_encodeAll hvalid, if_pos rfl]

/-- What `cw_write_string` calls leave in a buffer, when none of them fails. -/
theorem cwWriteStrings_eq_some {cap : ℕ} {values : List Bytes} {before payload : Bytes}
    (h : cwWriteStrings cap before values = some payload) :
    payload = before ++ (values.map stringField).flatten ∧
      (∀ v ∈ values, v.length ≤ cwMaxStringSize) ∧ (values ≠ [] → payload.length ≤ cap) := by
  induction values generalizing before with
  | nil =>
    rw [cwWriteStrings, Option.some.injEq] at h
    subst h
    simp
  | cons v vs ih =>
    rw [cwWriteStrings] at h
    cases hv : cwWriteString before cap v with
    | none => simp [hv] at h
    | some payload' =>
      simp only [hv] at h
      simp only [cwWriteString] at hv
      split_ifs at hv with hlong hfull
      obtain ⟨rfl, hsize, hcap⟩ := ih h
      obtain rfl := Option.some.inj hv
      refine ⟨by simp [stringField], fun w hw => ?_, fun _ => ?_⟩
      · rcases List.mem_cons.mp hw with rfl | hw
        · omega
        · exact hsize w hw
      · rcases eq_or_ne vs [] with rfl | hne
        · simp only [List.map_nil, List.flatten_nil, List.append_nil, List.length_append,
            length_be16]
          omega
        · exact hcap hne

/-- `cw_read_string` called for one string after the other, each with a buffer of its own: the
strings and the offset behind them. -/
def cwReadStrings (payload : Bytes) : ℕ → List ℕ → Option (List Bytes × ℕ)
  | offset, [] => some ([], offset)
  | offset, cap :: caps =>
    match cwReadString payload offset cap with
    | none => none
    | some (value, offset') =>
      (cwReadStrings payload offset' caps).map fun r => (value :: r.1, r.2)

/-- **String fields are read back one after the other**, by buffers that have room for them. -/
theorem cwReadStrings_fields {values : List Bytes} {caps : List ℕ} {before : Bytes}
    (hlen : ∀ v ∈ values, v.length ≤ cwMaxStringSize)
    (hcaps : List.Forall₂ (fun v cap => v.length < cap) values caps) :
    cwReadStrings (before ++ (values.map stringField).flatten) before.length caps =
      some (values, (before ++ (values.map stringField).flatten).length) := by
  induction hcaps generalizing before with
  | nil => rw [List.map_nil, List.flatten_nil, List.append_nil, cwReadStrings]
  | @cons v cap values caps hv _ ih =>
    have hread : cwReadString (before ++ stringField v ++ (values.map stringField).flatten)
        before.length cap = some (v, before.length + 2 + v.length) :=
      cwReadString_stringField (hlen v List.mem_cons_self) hv
    have hrest : cwReadStrings (before ++ stringField v ++ (values.map stringField).flatten)
        (before ++ stringField v).length caps = some (values, _) :=
      ih fun w hw => hlen w (List.mem_cons_of_mem v hw)
    rw [List.length_append, length_stringField, Nat.add_comm v.length, ← Nat.add_assoc] at hrest
    rw [List.map_cons, List.flatten_cons, ← List.append_assoc, cwReadStrings, hread]
    simp only
    rw [hrest]
    rfl

end ChannelWire
