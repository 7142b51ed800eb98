import ChannelWire.Foundation.Base64

/-!
# Base64 for URLs

The variant of RFC 4648 with `-` and `_` for `+` and `/` and without padding, and the forgiving
decoder of browsers: it skips blanks, takes a text with or without its padding, and fails on any
other symbol.

A text in the alphabet for URLs, with the symbols put back and padded to whole groups, is that of
base64 (`padded_encodeUrl`), which the forgiving decoder reads (`forgivingDecode_encode`).
-/

namespace Base64

/-- The symbol for URLs. -/
def toUrl (c : UInt8) : UInt8 := if c = 0x2B then 0x2D else if c = 0x2F then 0x5F else c

/-- The symbol of base64. -/
def ofUrl (c : UInt8) : UInt8 := if c = 0x2D then 0x2B else if c = 0x5F then 0x2F else c

/-- The symbols for URLs of a sequence of bytes. -/
def encodeUrl (bytes : List UInt8) : List UInt8 := ((encode bytes).filter (· ≠ pad)).map toUrl

/-- The symbols, with paddings up to whole groups. -/
def padded (s : List UInt8) : List UInt8 :=
  s ++ List.replicate ((s.length + 3) / 4 * 4 - s.length) pad

/-- The symbols without one or two paddings at the end, if they are whole groups. -/
def unpadded (s : List UInt8) : List UInt8 :=
  if s.length % 4 ≠ 0 then s
  else
    match s.reverse with
    | [] => s
    | c :: r =>
      if c ≠ pad then s
      else
        match r with
        | [] => []
        | d :: q => if d = pad then q.reverse else r.reverse

/-- Tab, line feed, form feed, carriage return and blank. -/
def isSpace (c : UInt8) : Bool := c = 0x9 ∨ c = 0xA ∨ c = 0xC ∨ c = 0xD ∨ c = 0x20

/-- The forgiving decoder. -/
def forgivingDecode (symbols : List UInt8) : Option (List UInt8) :=
  let s := unpadded (symbols.filter fun c => !isSpace c)
  if s.length % 4 = 1 ∨ s.all (fun c => (value c).isSome) = false then none else decode (padded s)

variable {bytes core : List UInt8} {k : ℕ}

/-- An encoding is a sequence of symbols with at most two paddings behind them. -/
theorem exists_core (bytes : List UInt8) : ∃ core k, encode bytes = core ++ List.replicate k pad ∧
    (∀ c ∈ core, (value c).isSome = true) ∧ k ≤ 2 ∧ (core.length + k) % 4 = 0 := by
  have hsymbol : ∀ v < 64, (value (symbol v)).isSome = true := fun v hv =>
    Option.isSome_of_eq_some (symbol_spec v hv).2
  induction bytes using encode.induct with
  | case1 a b c rest ih =>
    have ha := a.toNat_lt
    have hb := b.toNat_lt
    have hc := c.toNat_lt
    obtain ⟨core, k, hrest, hcore, hk, hlen⟩ := ih
    rw [encode, hrest]
    refine ⟨_ :: _ :: _ :: _ :: core, k, rfl, ?_, hk, ?_⟩
    · simp only [List.mem_cons]
      rintro x (rfl | rfl | rfl | rfl | hx)
      · exact hsymbol _ (by omega)
      · exact hsymbol _ (by omega)
      · exact hsymbol _ (by omega)
      · exact hsymbol _ (by omega)
      · exact hcore x hx
    · simp only [List.length_cons]
      omega
  | case2 a b =>
    have ha := a.toNat_lt
    have hb := b.toNat_lt
    refine ⟨[_, _, _], 1, rfl, ?_, by decide, (rfl : (3 + 1) % 4 = 0)⟩
    simp only [List.mem_cons, List.not_mem_nil, or_false]
    rintro x (rfl | rfl | rfl)
    · exact hsymbol _ (by omega)
    · exact hsymbol _ (by omega)
    · exact hsymbol _ (by omega)
  | case3 a =>
    have ha := a.toNat_lt
    refine ⟨[_, _], 2, rfl, ?_, le_rfl, (rfl : (2 + 2) % 4 = 0)⟩
    simp only [List.mem_cons, List.not_mem_nil, or_false]
    rintro x (rfl | rfl)
    · exact hsymbol _ (by omega)
    · exact hsymbol _ (by omega)
  | case4 => exact ⟨[], 0, rfl, fun _ h => absurd h List.not_mem_nil, by decide, rfl⟩

theorem ne_pad_of_value {c : UInt8} (h : (value c).isSome = true) : c ≠ pad := by
  rintro rfl
  exact absurd h (by decide)

theorem not_isSpace_of_isSymbol {c : UInt8} (h : IsSymbol c) : isSpace c = false := by
  rw [isSpace, decide_eq_false_iff_not]
  rintro (rfl | rfl | rfl | rfl | rfl) <;> exact absurd h (by decide)

theorem ofUrl_toUrl {c : UInt8} (h : (value c).isSome = true) : ofUrl (toUrl c) = c := by
  have hminus : c ≠ 0x2D := by
    rintro rfl
    exact absurd h (by decide)
  have hline : c ≠ 0x5F := by
    rintro rfl
    exact absurd h (by decide)
  unfold toUrl
  split_ifs with hplus hslash
  · rw [hplus]
    rfl
  · rw [hslash]
    rfl
  · rw [ofUrl, if_neg hminus, if_neg hline]

theorem padded_core (hk : k ≤ 2) (hlen : (core.length + k) % 4 = 0) :
    padded core = core ++ List.replicate k pad := by
  have : (core.length + 3) / 4 * 4 - core.length = k := by omega
  rw [padded, this]

theorem unpadded_core (hcore : ∀ c ∈ core, (value c).isSome = true) (hk : k ≤ 2)
    (hlen : (core.length + k) % 4 = 0) : unpadded (core ++ List.replicate k pad) = core := by
  have hwhole : ¬ (core ++ List.replicate k pad).length % 4 ≠ 0 := by
    rw [List.length_append, List.length_replicate, hlen]
    exact fun h => h rfl
  have hlast : ∀ c r, core.reverse = c :: r → c ≠ pad := by
    intro c r h
    exact ne_pad_of_value (hcore c (List.mem_reverse.mp (h ▸ List.mem_cons_self)))
  rw [unpadded, if_neg hwhole, List.reverse_append, List.reverse_replicate]
  have hcases : k = 0 ∨ k = 1 ∨ k = 2 := by omega
  rcases hcases with rfl | rfl | rfl
  · cases h : core.reverse with
    | nil => exact List.append_nil core
    | cons c r =>
      simp only [List.replicate_zero, List.nil_append]
      rw [if_pos (hlast c r h), List.append_nil]
  · cases h : core.reverse with
    | nil => exact (List.reverse_eq_nil_iff.mp h).symm
    | cons c r =>
      simp only [List.replicate_one, List.singleton_append]
      rw [if_neg (not_not_intro rfl), if_neg (hlast c r h), ← h, List.reverse_reverse]
  · exact List.reverse_reverse core

/-- With the symbols and the paddings put back, the encoding is that of base64. -/
theorem padded_encodeUrl (bytes : List UInt8) :
    padded ((encodeUrl bytes).map ofUrl) = encode bytes := by
  obtain ⟨core, k, hencode, hcore, hk, hlen⟩ := exists_core bytes
  have hfilter : (encode bytes).filter (· ≠ pad) = core := by
    rw [hencode, List.filter_append, List.filter_eq_self.mpr, List.filter_eq_nil_iff.mpr,
      List.append_nil]
    · intro c hc
      rw [List.eq_of_mem_replicate hc]
      decide
    · exact fun c hc => decide_eq_true (ne_pad_of_value (hcore c hc))
  have hback : (encodeUrl bytes).map ofUrl = core := by
    rw [encodeUrl, hfilter, List.map_map]
    exact (List.map_congr_left fun c hc => ofUrl_toUrl (hcore c hc)).trans (List.map_id _)
  rw [hback, padded_core hk hlen, hencode]

/-- **The forgiving decoder is an inverse of encoding.** -/
theorem forgivingDecode_encode (bytes : List UInt8) :
    forgivingDecode (encode bytes) = some bytes := by
  obtain ⟨core, k, hencode, hcore, hk, hlen⟩ := exists_core bytes
  have hspace : (encode bytes).filter (fun c => !isSpace c) = encode bytes := by
    refine List.filter_eq_self.mpr fun c hc => ?_
    rw [not_isSpace_of_isSymbol (isSymbol_of_mem_encode hc)]
    rfl
  have hgood : ¬ (core.length % 4 = 1 ∨ core.all (fun c => (value c).isSome) = false) := by
    rintro (h | h)
    · omega
    · rw [List.all_eq_true.mpr hcore] at h
      cases h
  rw [forgivingDecode, hspace, hencode, unpadded_core hcore hk hlen, if_neg hgood,
    padded_core hk hlen, ← hencode, decode_encode]

/-- The symbols for URLs are letters, digits, `-` and `_`. -/
theorem of_mem_encodeUrl {c : UInt8} (h : c ∈ encodeUrl bytes) :
    c.toNat < 0x80 ∧ c ≠ 0x2E ∧ c ≠ 0x22 ∧ c ≠ 0x5C ∧ 0x20 < c.toNat := by
  obtain ⟨d, hd, rfl⟩ := List.mem_map.mp h
  obtain ⟨hd, hne⟩ := List.mem_filter.mp hd
  have hall : ∀ n < 256, IsSymbol (.ofNat n) → (toUrl (.ofNat n)).toNat < 0x80 ∧
      toUrl (.ofNat n) ≠ 0x2E ∧ toUrl (.ofNat n) ≠ 0x22 ∧ toUrl (.ofNat n) ≠ 0x5C ∧
      0x20 < (toUrl (.ofNat n)).toNat := by decide +kernel
  have hof := hall d.toNat d.toNat_lt
  rw [UInt8.ofNat_toNat] at hof
  exact hof (isSymbol_of_mem_encode hd)

end Base64
