import ChannelWire.Core.Loop
import ChannelWire.Foundation.Numeral

/-!
# Limits from the environment

`main` reads the limit of the output queues and the size of the send buffers from the environment,
with `strtoul` and a fallback.  `unsigned long` and `size_t` have 64 bits here and `int` has 32.

`parse_size_env` refuses a text with something behind its digits and a zero.  It does not look at
the sign and does not ask for `ERANGE`, so the number that a numeral denotes comes back reduced or
saturated (`parseSizeEnv_of_denotes`).
-/

namespace ChannelWire
namespace Core

open Numeral

/-- `ULONG_MAX`. -/
def ulongMax : ℕ := 18446744073709551615

/-- `CW_DEFAULT_MAX_QUEUE_BYTES`. -/
def cwDefaultMaxQueueBytes : ℕ := 64 * 1024

/-- `strtoul(nptr, &end, 10)`: the result and the text that `end` points to. -/
def strtoul (nptr : Bytes) : ℕ × Bytes :=
  let subject := scan nptr
  if subject.digits = [] then (0, nptr)
  else if ulongMax < value subject.digits then (ulongMax, subject.rest)
  else if subject.negative then
    ((ulongMax + 1 - value subject.digits) % (ulongMax + 1), subject.rest)
  else (value subject.digits, subject.rest)

/-- `parse_size_env`; `env` is what `getenv(name)` returns. -/
def parseSizeEnv (env : Option Bytes) (fallback : ℕ) : ℕ :=
  match env with
  | none | some [] => fallback
  | some value =>
    let (parsed, rest) := strtoul value
    if rest = value ∨ rest ≠ [] ∨ parsed = 0 then fallback else parsed

/-- `max_queue_bytes`, as `main` sets it. -/
def maxQueueBytes (env : Option Bytes) : ℕ := parseSizeEnv env cwDefaultMaxQueueBytes

/-- The conversion of a `size_t` to `int`. -/
def toInt (n : ℕ) : ℤ :=
  if n % 4294967296 < 2147483648 then (n % 4294967296 : ℕ) else (n % 4294967296 : ℕ) - 4294967296

/-- `client_send_buffer_bytes`, as `main` sets it. -/
def clientSendBufferBytes (env : Option Bytes) : ℤ := toInt (parseSizeEnv env 0)

/-- The variable is set to a numeral of `z`. -/
def EnvDenotes (env : Option Bytes) (z : ℤ) : Prop := ∃ text, env = some text ∧ Denotes text z

/-- The limit is the fallback, or the positive integer that the variable is set to. -/
def MeansWhatItSays (env : Option Bytes) (fallback limit : ℤ) : Prop :=
  limit = fallback ∨ 0 < limit ∧ EnvDenotes env limit

/-- What `strtoul` makes of an integer. -/
def wrap (z : ℤ) : ℕ :=
  if z < -ulongMax ∨ ulongMax < z then ulongMax else (z % 18446744073709551616).toNat

variable {env : Option Bytes} {text : Bytes} {z z' : ℤ}

theorem EnvDenotes.unique (h : EnvDenotes env z) (h' : EnvDenotes env z') : z = z' := by
  obtain ⟨text, rfl, hz⟩ := h
  obtain ⟨text', htext, hz'⟩ := h'
  obtain rfl := Option.some.inj htext
  exact hz.unique hz'

/-! ## What is parsed -/

/-- `strtoul` of a numeral takes the whole text. -/
theorem strtoul_of_denotes (h : Denotes text z) : strtoul text = (wrap z, []) := by
  obtain ⟨hne, hrest, rfl⟩ := denotes_iff.mp h
  have hwrap : (strtoul text).1 = wrap (signed (scan text).negative (value (scan text).digits)) := by
    unfold strtoul wrap signed ulongMax
    simp only
    rw [if_neg hne]
    split_ifs <;> simp only <;> omega
  refine Prod.ext hwrap ?_
  unfold strtoul
  simp only
  rw [if_neg hne, hrest]
  split_ifs <;> rfl

/-- **A numeral is taken for what `strtoul` makes of it**, unless that is zero. -/
theorem parseSizeEnv_of_denotes (h : Denotes text z) (fallback : ℕ) :
    parseSizeEnv (some text) fallback = if wrap z = 0 then fallback else wrap z := by
  cases text with
  | nil => exact absurd h (not_denotes_nil z)
  | cons c text =>
    unfold parseSizeEnv
    simp only [strtoul_of_denotes h, ne_eq, not_true_eq_false, false_or]
    rw [if_congr (or_iff_right (List.cons_ne_nil c text).symm) rfl rfl]

/-- **What is no numeral leaves the fallback.** -/
theorem parseSizeEnv_of_not_denotes (h : ∀ z, ¬ EnvDenotes env z) (fallback : ℕ) :
    parseSizeEnv env fallback = fallback := by
  match env with
  | none | some [] => rfl
  | some (c :: text) =>
    unfold parseSizeEnv
    simp only
    refine if_pos ?_
    by_cases hdigits : (scan (c :: text)).digits = []
    · have hnone : strtoul (c :: text) = (0, c :: text) := if_pos hdigits
      exact Or.inl (congrArg Prod.snd hnone)
    · refine Or.inr (Or.inl fun hrest => ?_)
      have hscan : (strtoul (c :: text)).2 = (scan (c :: text)).rest := by
        unfold strtoul
        simp only
        rw [if_neg hdigits]
        split_ifs <;> rfl
      rw [hscan] at hrest
      exact h _ ⟨_, rfl, denotes_iff.mpr ⟨hdigits, hrest, rfl⟩⟩

/-- The limit of the queues is positive. -/
theorem maxQueueBytes_pos (env : Option Bytes) : 0 < maxQueueBytes env := by
  by_cases h : ∃ z, EnvDenotes env z
  · obtain ⟨z, text, rfl, hz⟩ := h
    rw [maxQueueBytes, parseSizeEnv_of_denotes hz]
    split_ifs with hzero
    · decide
    · exact Nat.pos_of_ne_zero hzero
  · rw [maxQueueBytes, parseSizeEnv_of_not_denotes (not_exists.mp h)]
    decide

/-! ## When a limit means what it says -/

/-- A limit that is not the fallback means what it says if it is the integer that is denoted. -/
theorem meansWhatItSays_iff {fallback limit : ℤ} (h : EnvDenotes env z) :
    MeansWhatItSays env fallback limit ↔ limit = fallback ∨ 0 < limit ∧ limit = z := by
  refine or_congr_right (and_congr_right fun _ => ⟨fun hlimit => hlimit.unique h, ?_⟩)
  rintro rfl
  exact h

/-- A variable that is set to a numeral has one value. -/
theorem forall_envDenotes_iff {P : ℤ → Prop} (h : EnvDenotes env z) :
    (∀ z', EnvDenotes env z' → P z') ↔ P z :=
  ⟨fun hall => hall z h, fun hz _ h' => h'.unique h ▸ hz⟩

/-- The integers that `strtoul` leaves what they are, or turns into the fallback. -/
theorem maxQueueBytes_means_iff (env : Option Bytes) :
    MeansWhatItSays env cwDefaultMaxQueueBytes (maxQueueBytes env) ↔
      ∀ z, EnvDenotes env z → 0 ≤ z ∧ z < 18446744073709551616 ∨
        z = 65536 - 18446744073709551616 := by
  by_cases h : ∃ z, EnvDenotes env z
  · obtain ⟨z, hz⟩ := h
    rw [meansWhatItSays_iff hz, forall_envDenotes_iff hz]
    obtain ⟨text, rfl, hz⟩ := hz
    rw [maxQueueBytes, parseSizeEnv_of_denotes hz]
    unfold wrap ulongMax cwDefaultMaxQueueBytes
    split_ifs with hlarge hzero
    · exact hzero.elim
    all_goals omega
  · rw [maxQueueBytes, parseSizeEnv_of_not_denotes (not_exists.mp h)]
    exact iff_of_true (Or.inl rfl) fun z hz => absurd ⟨z, hz⟩ h

/-- The integers that the conversion to `int` leaves what they are, or turns into zero. -/
theorem clientSendBufferBytes_means_iff (env : Option Bytes) :
    MeansWhatItSays env 0 (clientSendBufferBytes env) ↔
      ∀ z, EnvDenotes env z → 0 ≤ z ∧ z < 2147483648 ∨
        -18446744073709551616 < z ∧ z < 18446744073709551616 ∧ z % 4294967296 = 0 := by
  by_cases h : ∃ z, EnvDenotes env z
  · obtain ⟨z, hz⟩ := h
    rw [meansWhatItSays_iff hz, forall_envDenotes_iff hz]
    obtain ⟨text, rfl, hz⟩ := hz
    rw [clientSendBufferBytes, parseSizeEnv_of_denotes hz]
    unfold toInt wrap ulongMax
    split_ifs with hlarge hzero
    · exact hzero.elim
    all_goals omega
  · have hzero : clientSendBufferBytes env = 0 := by
      rw [clientSendBufferBytes, parseSizeEnv_of_not_denotes (not_exists.mp h)]
      rfl
    rw [hzero]
    exact iff_of_true (Or.inl rfl) fun z hz => absurd ⟨z, hz⟩ h

/-- **Limits mean what they say, unless a numeral is out of range.**  Both limits are the fallback
or the positive integer that the whole variable denotes if and only if the integers denoted, if
any, are no negative ones and none beyond 64, respectively 31 bits; the others that come out as the
fallback are listed. -/
theorem limits_mean_what_they_say_iff (maxQueue sndbuf : Option Bytes) :
    MeansWhatItSays maxQueue cwDefaultMaxQueueBytes (maxQueueBytes maxQueue) ∧
        MeansWhatItSays sndbuf 0 (clientSendBufferBytes sndbuf) ↔
      (∀ z, EnvDenotes maxQueue z → 0 ≤ z ∧ z < 18446744073709551616 ∨
        z = 65536 - 18446744073709551616) ∧
      ∀ z, EnvDenotes sndbuf z → 0 ≤ z ∧ z < 2147483648 ∨
        -18446744073709551616 < z ∧ z < 18446744073709551616 ∧ z % 4294967296 = 0 :=
  and_congr (maxQueueBytes_means_iff maxQueue) (clientSendBufferBytes_means_iff sndbuf)

/-- `CW_MAX_QUEUE_BYTES=-1` switches the limit of the queues off, and `CW_CLIENT_SNDBUF=4294967297`
asks for a buffer of one byte. -/
theorem limit_of_minus_one :
    ¬ ∀ maxQueue sndbuf : Option Bytes,
      MeansWhatItSays maxQueue cwDefaultMaxQueueBytes (maxQueueBytes maxQueue) ∧
        MeansWhatItSays sndbuf 0 (clientSendBufferBytes sndbuf) := by
  intro h
  have hdenotes : EnvDenotes (some (ascii "-1")) (-1) :=
    ⟨_, rfl, [], [0x2D], true, [0x31], by decide, .minus, List.forall_mem_nil _,
      List.forall_mem_singleton.mpr (by decide), List.cons_ne_nil _ _, rfl⟩
  have hmeans := (maxQueueBytes_means_iff _).mp (h (some (ascii "-1")) none).1 (-1) hdenotes
  omega

example : maxQueueBytes (some (ascii "-1")) = ulongMax := by decide

example : clientSendBufferBytes (some (ascii "4294967297")) = 1 := by decide

end Core
end ChannelWire
