import ChannelWire.Foundation.Utf8

/-!
# JSON texts

`loads` decodes a JSON text, given as code points, with the leniencies of Python's decoder: `NaN`
and the infinities are numbers, the spelling of a number is kept, a lone surrogate can be escaped,
and of several members with one key the last one counts.

The grammar is mutually recursive, and every call consumes a code point, so `loads` gives the
length of the text as fuel.  `loads_counters` says that an object of natural numbers, written
without blanks, is read back.
-/

namespace JsonText

open Utf8

/-- A text. -/
abbrev Text := List CodePoint

/-- A JSON value. -/
inductive Json where
  | null
  | bool (b : Bool)
  | number (literal : Text)
  | string (s : Text)
  | array (items : List Json)
  | object (fields : List (Text × Json))

/-- The code point of a character. -/
def ch (c : Char) : CodePoint := Fin.ofNat _ c.toNat

/-- The code points of a string. -/
def text (s : String) : Text := s.toList.map ch

/-- Blank, tab, line feed and carriage return. -/
def isBlank (c : CodePoint) : Bool := c = ch ' ' ∨ c.val = 0x9 ∨ c.val = 0xA ∨ c.val = 0xD

/-- `0` to `9`. -/
def isDigit (c : CodePoint) : Bool := 0x30 ≤ c.val ∧ c.val ≤ 0x39

/-- The text behind the blanks. -/
def skipBlanks (s : Text) : Text := s.dropWhile isBlank

/-! ## Strings -/

/-- The value of a hexadecimal digit. -/
def hexDigit (c : CodePoint) : Option ℕ :=
  if isDigit c then some (c.val - 0x30)
  else if 0x41 ≤ c.val ∧ c.val ≤ 0x46 then some (c.val - 0x37)
  else if 0x61 ≤ c.val ∧ c.val ≤ 0x66 then some (c.val - 0x57)
  else none

/-- Four hexadecimal digits. -/
def hex4 : Text → Option (ℕ × Text)
  | a :: b :: c :: d :: s =>
    match hexDigit a, hexDigit b, hexDigit c, hexDigit d with
    | some a, some b, some c, some d => some (((a * 16 + b) * 16 + c) * 16 + d, s)
    | _, _, _, _ => none
  | _ => none

/-- The escape of a low surrogate. -/
def lowSurrogate : Text → Option (ℕ × Text)
  | a :: b :: s =>
    if a = ch '\\' ∧ b = ch 'u' then
      (hex4 s).filter fun (v, _) => 0xDC00 ≤ v ∧ v < 0xE000
    else none
  | _ => none

/-- What follows the `u` of an escape; two surrogates are joined. -/
def unicodeEscape (s : Text) : Option (CodePoint × Text) :=
  match hex4 s with
  | none => none
  | some (v, s) =>
    if 0xD800 ≤ v ∧ v < 0xDC00 then
      match lowSurrogate s with
      | none => some (Fin.ofNat _ v, s)
      | some (w, s) => some (Fin.ofNat _ (0x10000 + (v - 0xD800) * 1024 + (w - 0xDC00)), s)
    else some (Fin.ofNat _ v, s)

/-- What follows a backslash. -/
def escape : Text → Option (CodePoint × Text)
  | [] => none
  | c :: s =>
    if c = ch '"' ∨ c = ch '\\' ∨ c = ch '/' then some (c, s)
    else if c = ch 'b' then some (0x8, s)
    else if c = ch 'f' then some (0xC, s)
    else if c = ch 'n' then some (0xA, s)
    else if c = ch 'r' then some (0xD, s)
    else if c = ch 't' then some (0x9, s)
    else if c = ch 'u' then unicodeEscape s
    else none

/-- What follows the opening quote of a string, in at most `n` steps. -/
def string : ℕ → Text → Option (Text × Text)
  | 0, _ => none
  | _ + 1, [] => none
  | n + 1, c :: s =>
    if c = ch '"' then some ([], s)
    else if c = ch '\\' then
      match escape s with
      | none => none
      | some (d, s) => (string n s).map fun (t, s) => (d :: t, s)
    else if c.val ≤ 0x1F then none
    else (string n s).map fun (t, s) => (c :: t, s)

/-! ## Numbers -/

/-- The digits in front, and the text behind them. -/
def digits (s : Text) : Text × Text := (s.takeWhile isDigit, s.dropWhile isDigit)

/-- The integral part of a number. -/
def integer : Text → Option (Text × Text)
  | [] => none
  | c :: s =>
    if c = ch '0' then some ([c], s)
    else if isDigit c then some (c :: (digits s).1, (digits s).2)
    else none

/-- The fractional part of a number, if there is one. -/
def fraction : Text → Text × Text
  | [] => ([], [])
  | c :: s =>
    if c = ch '.' ∧ (digits s).1 ≠ [] then (c :: (digits s).1, (digits s).2) else ([], c :: s)

/-- The sign in front. -/
def sign : Text → Text × Text
  | [] => ([], [])
  | c :: s => if c = ch '-' ∨ c = ch '+' then ([c], s) else ([], c :: s)

/-- The exponent of a number, if there is one. -/
def exponent : Text → Text × Text
  | [] => ([], [])
  | c :: s =>
    let (sign, s') := sign s
    if (c = ch 'e' ∨ c = ch 'E') ∧ (digits s').1 ≠ [] then
      (c :: sign ++ (digits s').1, (digits s').2)
    else ([], c :: s)

/-- A number without its sign. -/
def unsigned (s : Text) : Option (Text × Text) :=
  match integer s with
  | none => none
  | some (int, s) =>
    let (frac, s) := fraction s
    let (exp, s) := exponent s
    some (int ++ frac ++ exp, s)

/-- A number. -/
def number : Text → Option (Text × Text)
  | [] => none
  | c :: s =>
    if c = ch '-' then (unsigned s).map fun (t, s) => (c :: t, s) else unsigned (c :: s)

/-! ## Values -/

/-- The words that are values. -/
def words : List (Text × Json) :=
  [(text "null", .null), (text "true", .bool true), (text "false", .bool false),
    (text "NaN", .number (text "NaN")), (text "Infinity", .number (text "Infinity")),
    (text "-Infinity", .number (text "-Infinity"))]

/-- The word in front. -/
def word (s : Text) : Option (Json × Text) :=
  (words.find? fun (w, _) => w.isPrefixOf s).map fun (w, v) => (v, s.drop w.length)

/-- `fields[key] = value`. -/
def setItem : List (Text × Json) → Text → Json → List (Text × Json)
  | [], key, value => [(key, value)]
  | (k, v) :: fields, key, value =>
    if k = key then (k, value) :: fields else (k, v) :: setItem fields key value

mutual

/-- A value, in at most `n` nested steps. -/
def value : ℕ → Text → Option (Json × Text)
  | 0, _ => none
  | _ + 1, [] => none
  | n + 1, c :: s =>
    if c = ch '"' then (string s.length s).map fun (t, s) => (.string t, s)
    else if c = ch '\x7b' then
      let s := skipBlanks s
      if s.head? = some (ch '\x7d') then some (.object [], s.tail)
      else (members n [] s).map fun (fields, s) => (.object fields, s)
    else if c = ch '[' then
      let s := skipBlanks s
      if s.head? = some (ch ']') then some (.array [], s.tail)
      else (items n s).map fun (items, s) => (.array items, s)
    else
      match word (c :: s) with
      | some r => some r
      | none => (number (c :: s)).map fun (t, s) => (.number t, s)

/-- The members of an object, from a key on; `fields` are those before. -/
def members : ℕ → List (Text × Json) → Text → Option (List (Text × Json) × Text)
  | 0, _, _ => none
  | _ + 1, _, [] => none
  | n + 1, fields, c :: s =>
    if c = ch '"' then
      match string s.length s with
      | none => none
      | some (key, s) =>
        match skipBlanks s with
        | [] => none
        | d :: s =>
          if d = ch ':' then
            match value n (skipBlanks s) with
            | none => none
            | some (v, s) =>
              match skipBlanks s with
              | [] => none
              | e :: s =>
                if e = ch '\x7d' then some (setItem fields key v, s)
                else if e = ch ',' then members n (setItem fields key v) (skipBlanks s)
                else none
          else none
    else none

/-- The items of an array, from a value on. -/
def items : ℕ → Text → Option (List Json × Text)
  | 0, _ => none
  | n + 1, s =>
    match value n s with
    | none => none
    | some (v, s) =>
      match skipBlanks s with
      | [] => none
      | e :: s =>
        if e = ch ']' then some ([v], s)
        else if e = ch ',' then (items n (skipBlanks s)).map fun (vs, s) => (v :: vs, s)
        else none

end

/-- The value of a text; nothing but blanks may stand around it. -/
def loads (s : Text) : Option Json :=
  match value (2 * s.length + 1) (skipBlanks s) with
  | none => none
  | some (v, s) => if skipBlanks s = [] then some v else none

/-! ## Objects of natural numbers -/

/-- The decimal numeral of a number. -/
def numeral (n : ℕ) : Text := (Nat.toDigits 10 n).map ch

/-- A string without escapes, in quotes. -/
def quoted (s : Text) : Text := ch '"' :: s ++ [ch '"']

/-- The members of an object of natural numbers, with the brace behind them. -/
def membersText : Text × ℕ → List (Text × ℕ) → Text
  | (key, n), [] => quoted key ++ ch ':' :: (numeral n ++ [ch '\x7d'])
  | (key, n), m :: ms => quoted key ++ ch ':' :: (numeral n ++ ch ',' :: membersText m ms)

/-- An object of natural numbers. -/
def countersText : List (Text × ℕ) → Text
  | [] => [ch '\x7b', ch '\x7d']
  | m :: ms => ch '\x7b' :: membersText m ms

/-- A code point that a string contains as it is. -/
def IsPlain (c : CodePoint) : Prop := c ≠ ch '"' ∧ c ≠ ch '\\' ∧ 0x1F < c.val

instance (c : CodePoint) : Decidable (IsPlain c) := inferInstanceAs (Decidable (_ ∧ _ ∧ _))

theorem isDigit_ch {c : Char} (h : c.isDigit = true) : isDigit (ch c) = true := by
  obtain ⟨hmin, hmax⟩ := Char.isDigit_iff_toNat.mp h
  have hval : (ch c).val = c.toNat := by
    show c.toNat % 0x110000 = c.toNat
    have : '9'.toNat = 57 := rfl
    omega
  have h0 : '0'.toNat = 48 := rfl
  have h9 : '9'.toNat = 57 := rfl
  rw [isDigit, hval, decide_eq_true_eq]
  omega

theorem isDigit_of_mem_numeral {n : ℕ} {c : CodePoint} (h : c ∈ numeral n) : isDigit c = true := by
  obtain ⟨d, hd, rfl⟩ := List.mem_map.mp h
  exact isDigit_ch (Nat.isDigit_of_mem_toDigits (by decide) (by decide) hd)

/-- A numeral has a first digit, which is `0` in the numeral of zero only. -/
theorem exists_digitChar_numeral (n : ℕ) : ∃ d s, numeral n = ch (Nat.digitChar d) :: s ∧ d < 10 ∧
    (d = 0 → s = []) := by
  rcases Nat.eq_zero_or_pos n with rfl | hpos
  · exact ⟨0, [], rfl, by decide, fun _ => rfl⟩
  · suffices h : ∃ d s, numeral n = ch (Nat.digitChar d) :: s ∧ d < 10 ∧ d ≠ 0 by
      obtain ⟨d, s, hn, hd, hne⟩ := h
      exact ⟨d, s, hn, hd, fun h => absurd h hne⟩
    induction n using Nat.strong_induction_on with
    | _ n ih =>
      rcases Nat.lt_or_ge n 10 with hlt | hge
      · exact ⟨n, [], by rw [numeral, Nat.toDigits_of_lt_base hlt]; rfl, hlt, hpos.ne'⟩
      · obtain ⟨d, s, hn, hd⟩ := ih (n / 10) (Nat.div_lt_self hpos (by decide))
          (Nat.div_pos hge (by decide))
        refine ⟨d, s ++ [ch (Nat.digitChar (n % 10))], ?_, hd⟩
        rw [numeral] at hn
        rw [numeral, Nat.toDigits_of_base_le (by decide) hge, List.map_append, hn]
        rfl

/-- The digits of a numeral end where it ends. -/
theorem digits_append {s t : Text} (hs : ∀ c ∈ s, isDigit c = true)
    (ht : ∀ c ∈ t.head?, isDigit c = false) : digits (s ++ t) = (s, t) := by
  have htail : digits t = ([], t) := by
    cases t with
    | nil => rfl
    | cons c t =>
      have hc := ht c rfl
      simp [digits, hc]
  obtain ⟨htake, hdrop⟩ := Prod.mk.inj htail
  rw [digits, List.takeWhile_append_of_pos hs, List.dropWhile_append_of_pos hs, htake, hdrop,
    List.append_nil]

/-- A code point behind which a number ends. -/
def EndsNumber (c : CodePoint) : Prop := c = ch ',' ∨ c = ch '\x7d'

theorem EndsNumber.not_isDigit {c : CodePoint} (h : EndsNumber c) : isDigit c = false := by
  rcases h with rfl | rfl <;> decide

theorem unsigned_numeral {n : ℕ} {c : CodePoint} (hc : EndsNumber c) (t : Text) :
    unsigned (numeral n ++ c :: t) = some (numeral n, c :: t) := by
  obtain ⟨d, s, hn, hd, hzero⟩ := exists_digitChar_numeral n
  have hs : ∀ e ∈ s, isDigit e = true := fun e he =>
    isDigit_of_mem_numeral (n := n) (hn ▸ List.mem_cons_of_mem _ he)
  have hfirst : isDigit (ch (Nat.digitChar d)) = true :=
    isDigit_ch (by rw [Nat.isDigit_digitChar]; exact decide_eq_true hd)
  have hint : integer (numeral n ++ c :: t) = some (numeral n, c :: t) := by
    rw [hn, List.cons_append, integer]
    split_ifs with h0
    · have hfirst0 : ∀ d < 10, ch (Nat.digitChar d) = ch '0' → d = 0 := by decide
      rw [hzero (hfirst0 d hd h0), List.nil_append]
    · rw [digits_append hs (by rintro _ ⟨⟩; exact hc.not_isDigit)]
  have hfrac : fraction (c :: t) = ([], c :: t) := by
    rw [fraction, if_neg]
    rintro ⟨rfl, -⟩
    rcases hc with h | h <;> exact absurd h (by decide)
  have hexp : exponent (c :: t) = ([], c :: t) := by
    rw [exponent]
    refine if_neg ?_
    rintro ⟨rfl | rfl, -⟩ <;> rcases hc with h | h <;> exact absurd h (by decide)
  rw [unsigned, hint]
  simp only
  rw [hfrac]
  simp only
  rw [hexp]
  simp only [List.append_nil]

/-- No word begins with a digit. -/
theorem word_of_isDigit {d : CodePoint} (hd : isDigit d = true) (s : Text) : word (d :: s) = none := by
  have hwords : ∀ p ∈ words, ∃ c ∈ p.1.head?, isDigit c = false := by
    intro p hp
    simp only [words, List.mem_cons, List.not_mem_nil, or_false] at hp
    rcases hp with rfl | rfl | rfl | rfl | rfl | rfl <;> exact ⟨_, rfl, by decide⟩
  rw [word, List.find?_eq_none.mpr]
  · rfl
  · rintro ⟨w, v⟩ hp hprefix
    obtain ⟨c, hc, hdigit⟩ := hwords _ hp
    obtain ⟨r, hr⟩ := List.isPrefixOf_iff_prefix.mp hprefix
    cases w with
    | nil => cases hc
    | cons e w =>
      obtain rfl : e = c := Option.some.inj hc
      rw [(List.cons.inj hr).1, hd] at hdigit
      cases hdigit

/-- A numeral is read as a number. -/
theorem value_numeral (m n : ℕ) {c : CodePoint} (hc : EndsNumber c) (t : Text) :
    value (m + 1) (numeral n ++ c :: t) = some (.number (numeral n), c :: t) := by
  have hunsigned := unsigned_numeral (n := n) hc t
  obtain ⟨d, s, hn, -⟩ := exists_digitChar_numeral n
  have hd : isDigit (ch (Nat.digitChar d)) = true :=
    isDigit_of_mem_numeral (n := n) (hn ▸ List.mem_cons_self)
  have hne : ∀ e : CodePoint, isDigit e = false → ch (Nat.digitChar d) ≠ e := by
    rintro e he rfl
    rw [hd] at he
    cases he
  rw [hn, List.cons_append] at hunsigned ⊢
  rw [value, if_neg (hne _ (by decide)), if_neg (hne _ (by decide)), if_neg (hne _ (by decide)),
    word_of_isDigit hd, number, if_neg (hne _ (by decide)), hunsigned]
  rfl

/-- A string without escapes is read up to its closing quote. -/
theorem string_plain {s : Text} (hs : ∀ c ∈ s, IsPlain c) (t : Text) {n : ℕ} (hn : s.length < n) :
    string n (s ++ ch '"' :: t) = some (s, t) := by
  induction s generalizing n with
  | nil =>
    obtain ⟨m, rfl⟩ : ∃ m, n = m + 1 := ⟨n - 1, by omega⟩
    rfl
  | cons c s ih =>
    obtain ⟨m, rfl⟩ : ∃ m, n = m + 1 := ⟨n - 1, by omega⟩
    obtain ⟨hquote, hslash, hcontrol⟩ := hs c List.mem_cons_self
    have hrest := ih (fun d hd => hs d (List.mem_cons_of_mem c hd)) (n := m)
      (Nat.lt_of_succ_lt_succ hn)
    rw [List.cons_append, string, if_neg hquote, if_neg hslash, if_neg (not_le.mpr hcontrol), hrest]
    rfl

/-- A new key is put behind the others. -/
theorem setItem_of_notMem {fields : List (Text × Json)} {key : Text} (v : Json)
    (h : key ∉ fields.map Prod.fst) : setItem fields key v = fields ++ [(key, v)] := by
  induction fields with
  | nil => rfl
  | cons field fields ih =>
    obtain ⟨k, w⟩ := field
    rw [List.map_cons, List.mem_cons, not_or] at h
    rw [setItem, if_neg (Ne.symm h.1), ih h.2]
    rfl

/-- The members of an object of natural numbers. -/
def numbers (fields : List (Text × ℕ)) : List (Text × Json) :=
  fields.map fun (key, n) => (key, .number (numeral n))

theorem skipBlanks_of_not {c : CodePoint} (hc : isBlank c = false) (s : Text) :
    skipBlanks (c :: s) = c :: s := by
  rw [skipBlanks, List.dropWhile_cons, hc]
  rfl

theorem skipBlanks_numeral (n : ℕ) (s : Text) : skipBlanks (numeral n ++ s) = numeral n ++ s := by
  obtain ⟨d, t, hn, hd, -⟩ := exists_digitChar_numeral n
  rw [hn, List.cons_append]
  have hblank : ∀ d < 10, isBlank (ch (Nat.digitChar d)) = false := by decide
  exact skipBlanks_of_not (hblank d hd) _

/-- One member, up to the comma or the brace behind it. -/
theorem members_step {key : Text} (hkey : ∀ c ∈ key, IsPlain c) (fields : List (Text × Json))
    (k n : ℕ) {e : CodePoint} (he : EndsNumber e) (t : Text) :
    members (n + 2) fields (quoted key ++ ch ':' :: (numeral k ++ e :: t)) =
      if e = ch '\x7d' then some (setItem fields key (.number (numeral k)), t)
      else members (n + 1) (setItem fields key (.number (numeral k))) (skipBlanks t) := by
  let rest := ch ':' :: (numeral k ++ e :: t)
  have hstring : string (key ++ ch '"' :: rest).length (key ++ ch '"' :: rest) =
      some (key, rest) := by
    refine string_plain hkey _ ?_
    rw [List.length_append, List.length_cons]
    omega
  have hblank : isBlank e = false := by
    rcases he with rfl | rfl <;> decide
  have hlist : quoted key ++ rest = ch '"' :: (key ++ ch '"' :: rest) := by
    rw [quoted, List.cons_append, List.cons_append, List.append_assoc]
    rfl
  show members (n + 2) fields (quoted key ++ rest) = _
  rw [hlist, members, if_pos rfl, hstring]
  simp only
  rw [skipBlanks_of_not (by decide)]
  simp only [if_true]
  rw [skipBlanks_numeral, value_numeral n k he]
  simp only
  rw [skipBlanks_of_not hblank]
  simp only
  rcases he with rfl | rfl
  · rw [if_neg (by decide), if_pos rfl, if_neg (by decide)]
  · rw [if_pos rfl, if_pos rfl]

/-- The members are read one after the other, behind those in `fields`. -/
theorem members_counters {m : Text × ℕ} {ms : List (Text × ℕ)} {fields : List (Text × Json)} {n : ℕ}
    (hplain : ∀ p ∈ m :: ms, ∀ c ∈ p.1, IsPlain c)
    (hnodup : (fields.map Prod.fst ++ (m :: ms).map Prod.fst).Nodup)
    (hn : (m :: ms).length < n) (t : Text) :
    members n fields (membersText m ms ++ t) = some (fields ++ numbers (m :: ms), t) := by
  induction ms generalizing m fields n with
  | nil =>
    obtain ⟨key, k⟩ := m
    obtain ⟨n, rfl⟩ : ∃ j, n = j + 2 := ⟨n - 2, by rw [List.length_singleton] at hn; omega⟩
    have hnew : key ∉ fields.map Prod.fst := by
      intro h
      exact (List.nodup_append.mp hnodup).2.2 key h key List.mem_cons_self rfl
    rw [membersText, List.append_assoc, List.cons_append, List.append_assoc]
    rw [List.singleton_append, members_step (hplain _ List.mem_cons_self) fields k n (.inr rfl),
      if_pos rfl, setItem_of_notMem _ hnew]
    rfl
  | cons m' ms ih =>
    obtain ⟨key, k⟩ := m
    obtain ⟨n, rfl⟩ : ∃ j, n = j + 2 := ⟨n - 2, by
      rw [List.length_cons, List.length_cons] at hn
      omega⟩
    have hnew : key ∉ fields.map Prod.fst := by
      intro h
      exact (List.nodup_append.mp hnodup).2.2 key h key List.mem_cons_self rfl
    have hquote : ∃ s, membersText m' ms ++ t = ch '"' :: s := by
      cases ms <;> exact ⟨_, rfl⟩
    have hskip : skipBlanks (membersText m' ms ++ t) = membersText m' ms ++ t := by
      obtain ⟨s, hs⟩ := hquote
      rw [hs]
      exact skipBlanks_of_not (by decide) s
    have hrest : members (n + 1) (fields ++ [(key, .number (numeral k))]) (membersText m' ms ++ t) =
        some (fields ++ [(key, .number (numeral k))] ++ numbers (m' :: ms), t) :=
      ih (fun p hp => hplain p (List.mem_cons_of_mem _ hp)) (by simpa using hnodup)
        (by rw [List.length_cons] at hn; omega)
    rw [membersText, List.append_assoc, List.cons_append, List.append_assoc, List.cons_append,
      members_step (hplain _ List.mem_cons_self) fields k n (.inl rfl), if_neg (by decide),
      setItem_of_notMem _ hnew, hskip, hrest, List.append_assoc]
    rfl

theorem length_le_membersText (m : Text × ℕ) (ms : List (Text × ℕ)) :
    (m :: ms).length ≤ (membersText m ms).length := by
  induction ms generalizing m with
  | nil =>
    obtain ⟨key, k⟩ := m
    simp only [membersText, quoted, List.length_append, List.length_cons]
    omega
  | cons m' ms ih =>
    obtain ⟨key, k⟩ := m
    have hlen := ih m'
    simp only [membersText, quoted, List.length_append, List.length_cons] at hlen ⊢
    omega

/-- **An object of natural numbers is read back.** -/
theorem loads_counters {fields : List (Text × ℕ)} (hplain : ∀ p ∈ fields, ∀ c ∈ p.1, IsPlain c)
    (hnodup : (fields.map Prod.fst).Nodup) :
    loads (countersText fields) = some (.object (numbers fields)) := by
  cases fields with
  | nil => rfl
  | cons m ms =>
    have hlen := length_le_membersText m ms
    have hfuel : (m :: ms).length < 2 * (countersText (m :: ms)).length := by
      refine lt_of_le_of_lt hlen ?_
      show _ < 2 * ((membersText m ms).length + 1)
      omega
    have hmembers : members (2 * (countersText (m :: ms)).length) [] (membersText m ms ++ []) =
        some ([] ++ numbers (m :: ms), []) :=
      members_counters hplain (by rwa [List.map_nil, List.nil_append]) hfuel []
    rw [List.append_nil, List.nil_append] at hmembers
    have hquote : ∃ s, membersText m ms = ch '"' :: s := by
      cases ms <;> exact ⟨_, rfl⟩
    obtain ⟨s, hs⟩ := hquote
    rw [loads, show skipBlanks (countersText (m :: ms)) = ch '\x7b' :: membersText m ms from
      skipBlanks_of_not (by decide) _, value, if_neg (by decide), if_pos rfl]
    have hskip : skipBlanks (membersText m ms) = membersText m ms := by
      rw [hs]
      exact skipBlanks_of_not (by decide) s
    have hhead : (membersText m ms).head? ≠ some (ch '\x7d') := by
      rw [hs, List.head?_cons]
      decide
    simp only [hskip]
    rw [if_neg hhead, hmembers]
    rfl

end JsonText
