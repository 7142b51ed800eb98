import ChannelWire.Protocol.Wire

/-!
# The Python readers of the core's stream

`core_read` of the gateway and `read_frame` of the command line client wait for the five bytes
of a header and then for as many bytes as it announces.  The argument is what the peer will
send before it closes; `none` stands for the exception raised when that ends too early.  Both
readers follow `pyFraming` (`coreRead_eq`, `readMany_coreRead`).

`recv_exact` gets its bytes in pieces of any size; how they are cut makes no difference
(`recvExact_eq`, `recvFrame_eq`).
-/

namespace ChannelWire

/-- `StreamReader.readexactly` and `recv_exact`: `n` bytes and what is left. -/
def readExactly (n : ℕ) (stream : Bytes) : Option (Bytes × Bytes) :=
  if stream.length < n then none else some (stream.take n, stream.drop n)

/-- `core_read`. -/
def coreRead (stream : Bytes) : Option (Frame × Bytes) :=
  match readExactly 5 stream with
  | none => none
  | some (header, stream) =>
    let msgType := header.headD 0
    let payloadLen := fromBe header.tail
    match readExactly payloadLen stream with
    | none => none
    | some (payload, stream) => some (⟨msgType, payload⟩, stream)

/-- `read_frame`: `struct.unpack("!BI", header)` yields the type byte and the length. -/
def readFrame (stream : Bytes) : Option (Frame × Bytes) :=
  match readExactly 5 stream with
  | none => none
  | some (header, stream) =>
    match readExactly (fromBe (header.drop 1)) stream with
    | none => none
    | some (payload, stream) => some (⟨header.headD 0, payload⟩, stream)

/-- The frames at most `n` calls of a reader return. -/
def readMany (read : Bytes → Option (Frame × Bytes)) : ℕ → Bytes → List Frame
  | 0, _ => []
  | n + 1, stream =>
    match read stream with
    | none => []
    | some (frame, stream) => frame :: readMany read n stream

theorem readExactly_of_short {n : ℕ} {l : Bytes} (h : l.length < n) : readExactly n l = none :=
  if_pos h

theorem readExactly_of_le {n : ℕ} {l : Bytes} (h : n ≤ l.length) :
    readExactly n l = some (l.take n, l.drop n) := if_neg (not_lt.mpr h)

/-- One call of `core_read` takes the frame in front of the stream. -/
theorem coreRead_eq (l : Bytes) :
    coreRead l =
      match pyFraming.head l with
      | .item f n => some (f, l.drop n)
      | _ => none := by
  by_cases hl : l.length < 5
  · have hhead : pyFraming.head l = .more := frameHead_of_short hl
    rw [coreRead, readExactly_of_short hl, hhead]
  · obtain ⟨t, x, y, z, w, r, rfl⟩ := exists_header (not_lt.mp hl)
    have hhead : pyFraming.head (t :: x :: y :: z :: w :: r) =
        if r.length < fromBe [x, y, z, w] then .more
        else .item ⟨t, r.take (fromBe [x, y, z, w])⟩ (5 + fromBe [x, y, z, w]) := by
      have hlt := fromBe_quad_lt x y z w
      rw [pyFraming_head]
      simp only [frameHead]
      rw [if_neg (by omega)]
      rfl
    rw [coreRead, readExactly_of_le (not_lt.mp hl), hhead]
    simp only [List.take_succ_cons, List.take_zero, List.drop_succ_cons, List.drop_zero,
      List.headD_cons, List.tail_cons]
    by_cases hr : r.length < fromBe [x, y, z, w]
    · rw [if_pos hr, readExactly_of_short hr]
    · rw [if_neg hr, readExactly_of_le (not_lt.mp hr)]
      simp only [Nat.add_comm 5, List.drop_succ_cons]

theorem readFrame_eq_coreRead (l : Bytes) : readFrame l = coreRead l := by
  unfold readFrame coreRead
  cases readExactly 5 l with
  | none => rfl
  | some hr => simp only [List.drop_one]

/-- **The frames a reader gets from a stream** are those its framing finds. -/
theorem readMany_coreRead (l : Bytes) {n : ℕ} (hn : l.length ≤ n) :
    readMany coreRead n l = (pyFraming.parse l).1 := by
  induction l using StreamDecoder.Decoder.parse_induction (D := pyFraming.toDecoder)
    generalizing n with
  | hstop l h =>
    rw [StreamDecoder.Decoder.parse_of_not_item h]
    cases n with
    | zero => rfl
    | succ n =>
      have hread : coreRead l = none := by
        rw [coreRead_eq]
        split
        · next f k hf => exact absurd hf (h f k)
        · rfl
      rw [readMany, hread]
  | hitem l x k h ih =>
    have hb := pyFraming.item_bound h
    have hd : (l.drop k).length = l.length - k := List.length_drop
    obtain ⟨m, rfl⟩ : ∃ m, n = m + 1 := ⟨n - 1, by omega⟩
    have hread : coreRead l = some (x, l.drop k) := by rw [coreRead_eq, h]
    rw [StreamDecoder.Decoder.parse_of_item h, readMany, hread]
    simp only
    rw [ih (by omega)]

/-! ## Reading from a socket -/

/-- `sock.recv`: at most `bufsize` of the bytes that are there, at least one if there is one.  How
many it is is up to `cut`. -/
def recv (cut : ℕ → Bytes → ℕ) (bufsize : ℕ) (stream : Bytes) : Bytes × Bytes :=
  let count := min bufsize (max 1 (cut bufsize stream))
  (stream.take count, stream.drop count)

/-- The loop of `recv_exact`, at most `n` times round. -/
def recvExactLoop (cut : ℕ → Bytes → ℕ) (length : ℕ) : ℕ → Bytes → Bytes → Option (Bytes × Bytes)
  | 0, chunks, stream => if chunks.length < length then none else some (chunks, stream)
  | n + 1, chunks, stream =>
    if chunks.length < length then
      let (chunk, stream) := recv cut (length - chunks.length) stream
      if chunk = [] then none else recvExactLoop cut length n (chunks ++ chunk) stream
    else some (chunks, stream)

/-- `recv_exact`.  Every turn adds a byte at least, so the length bounds the turns. -/
def recvExact (cut : ℕ → Bytes → ℕ) (length : ℕ) (stream : Bytes) : Option (Bytes × Bytes) :=
  recvExactLoop cut length length [] stream

/-- `read_frame`, with the calls of `sock.recv`. -/
def recvFrame (cut : ℕ → Bytes → ℕ) (stream : Bytes) : Option (Frame × Bytes) :=
  match recvExact cut 5 stream with
  | none => none
  | some (header, stream) =>
    match recvExact cut (fromBe (header.drop 1)) stream with
    | none => none
    | some (payload, stream) => some (⟨header.headD 0, payload⟩, stream)

/-- What `sock.recv` returns is in front of what is left, and empty only behind the end. -/
theorem recv_spec (cut : ℕ → Bytes → ℕ) {bufsize : ℕ} (hpos : 0 < bufsize) (stream : Bytes) :
    (recv cut bufsize stream).1 ++ (recv cut bufsize stream).2 = stream ∧
      (recv cut bufsize stream).1.length ≤ bufsize ∧
      ((recv cut bufsize stream).1 = [] → stream = []) := by
  refine ⟨List.take_append_drop _ _, ?_, fun h => ?_⟩
  · rw [recv, List.length_take]
    omega
  · rcases List.take_eq_nil_iff.mp h with hzero | hnil
    · omega
    · exact hnil

theorem recvExactLoop_eq {cut : ℕ → Bytes → ℕ} {length n : ℕ} {chunks stream : Bytes}
    (hle : chunks.length ≤ length) (hn : length ≤ chunks.length + n) :
    recvExactLoop cut length n chunks stream =
      (readExactly (length - chunks.length) stream).map fun r => (chunks ++ r.1, r.2) := by
  induction n generalizing chunks stream with
  | zero =>
    have hdone : length - chunks.length = 0 := by omega
    rw [recvExactLoop, if_neg (by omega), hdone, readExactly_of_le (Nat.zero_le _)]
    simp only [Option.map_some, List.take_zero, List.append_nil, List.drop_zero]
  | succ n ih =>
    rw [recvExactLoop]
    by_cases hmore : chunks.length < length
    · have hask : 0 < length - chunks.length := by omega
      obtain ⟨happ, hlen, hnil⟩ := recv_spec cut hask stream
      rw [if_pos hmore]
      generalize recv cut (length - chunks.length) stream = r at happ hlen hnil ⊢
      obtain ⟨chunk, rest⟩ := r
      simp only at happ hlen hnil ⊢
      by_cases hchunk : chunk = []
      · -- the peer has closed
        rw [if_pos hchunk, hnil hchunk, readExactly_of_short (by rw [List.length_nil]; omega)]
        rfl
      · have hpos := List.length_pos_iff.mpr hchunk
        have hrest : length - (chunks ++ chunk).length =
            length - chunks.length - chunk.length := by
          rw [List.length_append]
          omega
        rw [if_neg hchunk, ih (by rw [List.length_append]; omega)
          (by rw [List.length_append]; omega), hrest, ← happ]
        rcases Nat.lt_or_ge rest.length (length - chunks.length - chunk.length) with h | h
        · rw [readExactly_of_short h,
            readExactly_of_short (by rw [List.length_append]; omega)]
          rfl
        · rw [readExactly_of_le h, readExactly_of_le (by rw [List.length_append]; omega),
            Option.map_some, Option.map_some, List.take_append, List.drop_append,
            List.take_of_length_le hlen, List.drop_of_length_le hlen, List.append_assoc,
            List.nil_append]
    · have hdone : length - chunks.length = 0 := by omega
      rw [if_neg hmore, hdone, readExactly_of_le (Nat.zero_le _)]
      simp only [Option.map_some, List.take_zero, List.append_nil, List.drop_zero]

/-- **`recv_exact` returns the next bytes**, however they come in. -/
theorem recvExact_eq (cut : ℕ → Bytes → ℕ) (length : ℕ) (stream : Bytes) :
    recvExact cut length stream = readExactly length stream := by
  rw [recvExact, recvExactLoop_eq (Nat.zero_le _) (by rw [List.length_nil]; omega)]
  simp only [List.length_nil, Nat.sub_zero, List.nil_append]
  exact Option.map_id'

theorem recvFrame_eq (cut : ℕ → Bytes → ℕ) (stream : Bytes) :
    recvFrame cut stream = readFrame stream := by
  simp only [recvFrame, readFrame, recvExact_eq]

end ChannelWire
