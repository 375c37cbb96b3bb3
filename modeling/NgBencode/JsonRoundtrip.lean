import NgBencode.Json

/-!
# `json.loads` reads back what `json.dumps` writes

The scripts build each command with `json.dumps`, and RTPEngine's answers, when they hold
JSON, are read with `json.loads`. This module proves that the two functions of the model,
`jsonDumps` and `jsonLoads`, are inverse on the values the scripts send: for every value with
no `float`, no key twice in one `dict`, and no string holding a high surrogate right before a
low one, and for every pair of separators that are the comma and the colon with whitespace
around them, `jsonLoads (jsonDumps v) = .ok v` (`jsonLoads_jsonDumps`).

The proof follows the decoder. A string is read back escape by escape
(`scanstring_escapes`): each code point is written in one of four shapes (`escapeChar_cases`),
and each shape is one equation of `scanstring`. A surrogate pair written for a code point past
U+FFFF is joined again; a lone high surrogate is not, because the escape after it never
spells a low one, which is where the condition on strings comes from. An `int` is read back
by `_match_number_unicode` because a numeral stops at a delimiter (`matchNumber_intRepr`).
Arrays and objects are read by one induction on fuel carrying the value, the array loop and
the object loop at once (`scan_dumps`), as `scan_fuel_enough` does; the fuel bound of
`jsonLoads` then turns "unless the fuel runs out" into equality.

Floats are left out: their text is `float.__repr__`, a parameter of the model. A key written
twice is not read back as written: `PyDict_SetItem` keeps its first place and its last
value.

## Main results

* `scanstring_escapes`: `scanstring` reads back `encode_basestring_ascii`'s escapes.
* `matchNumber_intRepr`: `_match_number_unicode` reads back `int.__repr__`.
* `scan_dumps`: the scanner reads back every value, array loop and object loop.
* `jsonLoads_jsonDumps`: `json.loads(json.dumps(v)) == v` for every plain value.
-/

namespace NgBencode

variable {F : Type}

/-! ### Strings -/

/-- No high surrogate is directly followed by a low one: `json.loads` would join their two
escapes into one character. -/
def NoSurrogatePair : List CodePoint → Prop
  | a :: b :: s => ¬ (0xD800 ≤ a.val ∧ a.val ≤ 0xDBFF ∧ 0xDC00 ≤ b.val ∧ b.val ≤ 0xDFFF) ∧
    NoSurrogatePair (b :: s)
  | _ => True

instance instDecidableNoSurrogatePair : DecidablePred NoSurrogatePair
  | _ :: b :: s =>
    have := instDecidableNoSurrogatePair (b :: s)
    inferInstanceAs (Decidable (¬ _ ∧ NoSurrogatePair (b :: s)))
  | [] => isTrue trivial
  | [_] => isTrue trivial

theorem noSurrogatePair_cons {c : CodePoint} {s : List CodePoint} :
    NoSurrogatePair (c :: s) ↔ (∀ b ∈ s.head?,
      ¬ (0xD800 ≤ c.val ∧ c.val ≤ 0xDBFF ∧ 0xDC00 ≤ b.val ∧ b.val ≤ 0xDFFF)) ∧
      NoSurrogatePair s := by
  cases s <;> simp [NoSurrogatePair]

theorem CodePoint.ofNat_val (c : CodePoint) : CodePoint.ofNat c.val = c :=
  Fin.ext (Nat.mod_eq_of_lt c.isLt)

theorem hexValue_digitChar : ∀ k : Fin 16, hexValue (Nat.digitChar k) = some k := by decide

/-- The four digits `hex4` writes are read back as the number. -/
theorem decodeHex4_hex4 {n : Nat} (h : n < 0x10000) :
    ∃ a b c d, hex4 n = [a, b, c, d] ∧ decodeHex4 a b c d = some n := by
  refine ⟨_, _, _, _, rfl, ?_⟩
  have e : ∀ m, hexValue (Nat.digitChar (m % 16)) = some (m % 16) := fun m =>
    hexValue_digitChar ⟨m % 16, Nat.mod_lt _ (by decide)⟩
  simp only [decodeHex4, e, Option.bind_eq_bind, Option.some_bind, Option.pure_def,
    Option.some.injEq]
  omega

/-! The equations of `scanstring` at each kind of character it reads. -/

theorem scanstring_plain {ch : Char} (h1 : ch ≠ '\x22') (h2 : ch ≠ '\x5c') (h3 : 0x1F < ch.toNat)
    (rest : List Char) : scanstring (ch :: rest) = consCode ch.toNat (scanstring rest) := by
  rw [scanstring.eq_8 _ _ h1 (fun h => absurd h h2) (fun _ _ _ _ _ _ _ _ _ _ h => absurd h h2)
    (fun _ _ _ _ _ _ h => absurd h h2) (fun _ h => absurd h h2) (fun _ _ h => absurd h h2),
    if_neg (by omega)]

theorem scanstring_escape {x : Char} {n : Nat} (hu : x ≠ 'u') (hx : backslashEscape x = some n)
    (rest : List Char) : scanstring ('\x5c' :: x :: rest) = consCode n (scanstring rest) := by
  rw [scanstring.eq_7 _ _ (fun _ _ _ _ _ _ _ _ _ _ h => absurd h hu)
    (fun _ _ _ _ _ _ h => absurd h hu) hu, hx]

/-- A `\uXXXX` escape that is not joined with the next one: it is no high surrogate, or what
follows it is no `\u` escape of a low surrogate. -/
theorem scanstring_u {a b c d r : Char} {u : Nat} (hd : decodeHex4 a b c d = some u)
    (rest : List Char)
    (hpair : ∀ e f g h r' rest', r :: rest = '\x5c' :: 'u' :: e :: f :: g :: h :: r' :: rest' →
      0xD800 ≤ u ∧ u ≤ 0xDBFF →
        ∃ u2, decodeHex4 e f g h = some u2 ∧ ¬ (0xDC00 ≤ u2 ∧ u2 ≤ 0xDFFF)) :
    scanstring ('\x5c' :: 'u' :: a :: b :: c :: d :: r :: rest) =
      consCode u (scanstring (r :: rest)) := by
  by_cases hm : ∃ e f g h r' rest', r :: rest = '\x5c' :: 'u' :: e :: f :: g :: h :: r' :: rest'
  · obtain ⟨e, f, g, h, r', rest', he⟩ := hm
    rw [he, scanstring.eq_4, hd]
    dsimp only
    split_ifs with hu
    · obtain ⟨u2, hd2, hl⟩ := hpair _ _ _ _ _ _ he hu
      rw [hd2]
      exact if_neg hl
    · rfl
  · rw [scanstring.eq_5 _ _ _ _ _ _ fun e f g h r' rest' h1 h2 =>
      hm ⟨e, f, g, h, r', rest', by rw [h1, h2]⟩, hd]

theorem scanstring_pair {a b c d e f g h r : Char} {u u2 : Nat}
    (hd : decodeHex4 a b c d = some u) (hu : 0xD800 ≤ u ∧ u ≤ 0xDBFF)
    (hd2 : decodeHex4 e f g h = some u2) (hl : 0xDC00 ≤ u2 ∧ u2 ≤ 0xDFFF) (rest : List Char) :
    scanstring ('\x5c' :: 'u' :: a :: b :: c :: d :: '\x5c' :: 'u' :: e :: f :: g :: h :: r ::
      rest) = consCode ((((u &&& 0x3FF) <<< 10) ||| (u2 &&& 0x3FF)) + 0x10000)
        (scanstring (r :: rest)) := by
  rw [scanstring.eq_4, hd]
  dsimp only
  rw [if_pos hu, hd2]
  exact if_pos hl

private theorem or_eq_add (a b : Nat) (hb : b < 1024) : 1024 * a ||| b = 1024 * a + b :=
  (Nat.mul_add_lt_is_or (show b < 2 ^ 10 from hb) a).symm

/-- The surrogate pair `ascii_escape_unichar` writes past U+FFFF is a high and a low surrogate,
and `Py_UNICODE_JOIN_SURROGATES` joins them back into the code point. -/
theorem surrogates_of_ge {n : Nat} (h1 : 0x10000 ≤ n) (h2 : n < 0x110000) :
    0xD800 ≤ 0xD800 - (0x10000 >>> 10) + (n >>> 10) ∧
    0xD800 - (0x10000 >>> 10) + (n >>> 10) ≤ 0xDBFF ∧
    0xDC00 ≤ 0xDC00 + (n &&& 0x3FF) ∧ 0xDC00 + (n &&& 0x3FF) ≤ 0xDFFF ∧
    ((((0xD800 - (0x10000 >>> 10) + (n >>> 10)) &&& 0x3FF) <<< 10) |||
      ((0xDC00 + (n &&& 0x3FF)) &&& 0x3FF)) + 0x10000 = n := by
  have m : ∀ x, x &&& 0x3FF = x % 1024 := fun x => Nat.and_pow_two_sub_one_eq_mod x 10
  simp only [m, Nat.shiftRight_eq_div_pow, Nat.shiftLeft_eq]
  norm_num
  rw [Nat.mul_comm, or_eq_add _ _ (Nat.mod_lt _ (by norm_num))]
  omega

/-- The four shapes of an escaped code point: itself, a short escape, `\uXXXX`, or a
surrogate pair. -/
theorem escapeChar_cases (c : CodePoint) :
    (∃ ch, escapeChar c = [ch] ∧ ch ≠ '\x22' ∧ ch ≠ '\x5c' ∧ 0x1F < ch.toNat ∧
      ch.toNat = c.val ∧ ch.toNat < 128) ∨
    (∃ x, escapeChar c = ['\x5c', x] ∧ x ≠ 'u' ∧ backslashEscape x = some c.val ∧
      x.toNat < 128) ∨
    (c.val < 0x10000 ∧ escapeChar c = '\x5c' :: 'u' :: hex4 c.val) ∨
    (0x10000 ≤ c.val ∧ escapeChar c = '\x5c' :: 'u' :: hex4 (0xD800 - (0x10000 >>> 10) +
      (c.val >>> 10)) ++ '\x5c' :: 'u' :: hex4 (0xDC00 + (c.val &&& 0x3FF))) := by
  -- split the definition's `if` chain in a copy of the equation, not in the goal
  have key : escapeChar c = escapeChar c := rfl
  conv at key => rhs; unfold escapeChar
  dsimp only at key
  split_ifs at key with h₁ h₂ h₃ h₄ h₅ h₆ h₇ h₈ h₉ <;> rw [key]
  · have e := toNat_ofNat_of_valid (n := c.val) (by omega)
    refine .inl ⟨_, rfl, fun h => h₁.2.2.2 ?_, fun h => h₁.2.2.1 ?_, by omega, e, by omega⟩ <;>
      exact e.symm.trans ((congrArg Char.toNat h).trans rfl)
  · exact .inr (.inl ⟨_, rfl, by decide, by rw [h₂]; rfl, by decide⟩)
  · exact .inr (.inl ⟨_, rfl, by decide, by rw [h₃]; rfl, by decide⟩)
  · exact .inr (.inl ⟨_, rfl, by decide, by rw [h₄]; rfl, by decide⟩)
  · exact .inr (.inl ⟨_, rfl, by decide, by rw [h₅]; rfl, by decide⟩)
  · exact .inr (.inl ⟨_, rfl, by decide, by rw [h₆]; rfl, by decide⟩)
  · exact .inr (.inl ⟨_, rfl, by decide, by rw [h₇]; rfl, by decide⟩)
  · exact .inr (.inl ⟨_, rfl, by decide, by rw [h₈]; rfl, by decide⟩)
  · exact .inr (.inr (.inr ⟨h₉, rfl⟩))
  · exact .inr (.inr (.inl ⟨by omega, rfl⟩))

/-- The escape of a code point that is no low surrogate never starts with the `\u` escape of
a low surrogate, so an escape before it is never joined with it. -/
theorem escapeChar_lead {c : CodePoint} (hc : ¬ (0xDC00 ≤ c.val ∧ c.val ≤ 0xDFFF))
    {Y : List Char} {e f g h r' : Char} {rest' : List Char}
    (he : escapeChar c ++ Y = '\x5c' :: 'u' :: e :: f :: g :: h :: r' :: rest') :
    ∃ u2, decodeHex4 e f g h = some u2 ∧ ¬ (0xDC00 ≤ u2 ∧ u2 ≤ 0xDFFF) := by
  rcases escapeChar_cases c with ⟨ch, hE, -, h2, -⟩ | ⟨x, hE, hx, -⟩ | ⟨hlt, hE⟩ | ⟨hge, hE⟩
  · rw [hE] at he
    exact absurd (List.cons.inj he).1 h2
  · rw [hE] at he
    exact absurd (List.cons.inj (List.cons.inj he).2).1 hx
  · obtain ⟨a, b, c', d, hh, hd⟩ := decodeHex4_hex4 hlt
    rw [hE, hh] at he
    simp only [List.cons_append, List.cons.injEq] at he
    obtain ⟨-, -, rfl, rfl, rfl, rfl, -⟩ := he
    exact ⟨_, hd, hc⟩
  · have hs := surrogates_of_ge hge c.isLt
    obtain ⟨a, b, c', d, hh, hd⟩ := decodeHex4_hex4
      (show 0xD800 - (0x10000 >>> 10) + (c.val >>> 10) < 0x10000 by omega)
    rw [hE, hh] at he
    simp only [List.cons_append, List.cons.injEq] at he
    obtain ⟨-, -, rfl, rfl, rfl, rfl, -⟩ := he
    exact ⟨_, hd, by omega⟩

/-- **`scanstring` reads back what `encode_basestring_ascii` writes**, and stops after the closing
quote, for every string without a surrogate pair spelt as two code points. -/
theorem scanstring_escapes (s : List CodePoint) (hs : NoSurrogatePair s) (tail : List Char) :
    scanstring (s.flatMap escapeChar ++ '\x22' :: tail) = .ok (s, tail) := by
  induction s with
  | nil => rw [List.flatMap_nil, List.nil_append, scanstring.eq_2]
  | cons c s ih =>
    rw [noSurrogatePair_cons] at hs
    have ih := ih hs.2
    -- the text after `c`'s escape, and its first character
    obtain ⟨r, rest, hr⟩ : ∃ r rest, s.flatMap escapeChar ++ '\x22' :: tail = r :: rest :=
      List.exists_cons_of_ne_nil (by simp)
    have hok : consCode c.val (.ok (s, tail)) = .ok (c :: s, tail) := by
      simp [consCode, CodePoint.ofNat_val]
    rw [List.flatMap_cons, List.append_assoc]
    rcases escapeChar_cases c with ⟨ch, hE, h1, h2, h3, h4, -⟩ | ⟨x, hE, hx, hb, -⟩ | ⟨hlt, hE⟩ |
      ⟨hge, hE⟩
    · rw [hE, List.singleton_append, scanstring_plain h1 h2 h3, ih, h4, hok]
    · rw [hE, List.cons_append, List.singleton_append, scanstring_escape hx hb, ih, hok]
    · obtain ⟨a, b, c', d, hh, hd⟩ := decodeHex4_hex4 hlt
      rw [hE, hh]
      simp only [List.cons_append, List.nil_append]
      rw [hr, scanstring_u hd rest fun e f g h r' rest' he hu => ?_, ← hr, ih, hok]
      cases s with
      | nil => exact absurd (hr.trans he) (by simp)
      | cons c₂ s =>
        rw [List.flatMap_cons, List.append_assoc] at hr
        exact escapeChar_lead (fun hl => hs.1 c₂ rfl ⟨hu.1, hu.2, hl⟩) (hr.trans he)
    · have hs' := surrogates_of_ge hge c.isLt
      obtain ⟨a, b, c', d, hh, hd⟩ := decodeHex4_hex4
        (show 0xD800 - (0x10000 >>> 10) + (c.val >>> 10) < 0x10000 by omega)
      obtain ⟨e, f, g, h, hh', hd'⟩ := decodeHex4_hex4
        (show 0xDC00 + (c.val &&& 0x3FF) < 0x10000 by omega)
      rw [hE, hh, hh']
      simp only [List.cons_append, List.nil_append]
      rw [hr, scanstring_pair hd ⟨hs'.1, hs'.2.1⟩ hd' ⟨hs'.2.2.1, hs'.2.2.2.1⟩, ← hr, ih,
        hs'.2.2.2.2, hok]

/-! ### Numbers -/

private theorem digitChar_ne_zero : ∀ k : Fin 10, k ≠ 0 → Nat.digitChar k ≠ '0' := by decide

private theorem toDigitsCore_head (fuel n : Nat) (ds : List Char) (hn : n < fuel) (h0 : 0 < n) :
    ∃ d rest, Nat.toDigitsCore 10 fuel n ds = d :: rest ∧ d ≠ '0' := by
  induction fuel generalizing n ds with
  | zero => omega
  | succ fuel ih =>
    rw [Nat.toDigitsCore]
    split
    · refine ⟨_, _, rfl, digitChar_ne_zero ⟨n % 10, Nat.mod_lt _ (by decide)⟩ fun h => ?_⟩
      have := congrArg Fin.val h
      simp only [Fin.val_zero] at this
      omega
    · exact ih _ _ (by omega) (by omega)

/-- A numeral `f'{n}'` is its leading digit and more digits; it is `0` or does not start with
`0`. -/
theorem toDigits_cons (m : Nat) : ∃ d ds, Nat.toDigits 10 m = d :: ds ∧ d.isDigit ∧
    (∀ c ∈ ds, c.isDigit) ∧ (d = '0' → ds = []) := by
  obtain ⟨hne, hd, -⟩ := toDigits_spec m
  obtain ⟨d, ds, h⟩ := List.exists_cons_of_ne_nil hne
  refine ⟨d, ds, h, hd d (by simp [h]), fun c hc => hd c (by simp [h, hc]), fun h0 => ?_⟩
  rcases Nat.eq_zero_or_pos m with rfl | hm
  · exact (List.cons.inj (h.symm.trans rfl : d :: ds = ['0'])).2
  · obtain ⟨d', ds', h', hd'⟩ := toDigitsCore_head (m + 1) m [] (by omega) hm
    rw [Nat.toDigits, h'] at h
    exact absurd ((List.cons.inj h).1.trans h0) hd'

/-- What may follow a value in the text `json.dumps` writes: nothing, whitespace, or a
delimiter that separates or closes it. -/
def Delimited (rest : List Char) : Prop :=
  ∀ c ∈ rest.head?, isJsonWhitespace c ∨ c = ',' ∨ c = ']' ∨ c = '\x7d'

theorem Delimited.not_number {rest : List Char} (h : Delimited rest) :
    ∀ c ∈ rest.head?, c.isDigit = false ∧ c ≠ '.' ∧ c ≠ 'e' ∧ c ≠ 'E' := fun c hc => by
  rcases h c hc with hw | rfl | rfl | rfl
  · simp only [isJsonWhitespace, Bool.or_eq_true, decide_eq_true_eq] at hw
    rcases hw with ((rfl | rfl) | rfl) | rfl <;> decide
  all_goals decide

theorem matchFraction_of_delimited {rest : List Char} (h : Delimited rest) :
    matchFraction rest = ([], rest) := by
  rcases rest with _ | ⟨c, t⟩
  · rfl
  · have := (h.not_number c rfl).2.1
    unfold matchFraction; split
    · next heq => cases heq; exact absurd rfl this
    · rfl

theorem matchExponent_of_delimited {rest : List Char} (h : Delimited rest) :
    matchExponent rest = ([], rest) := by
  rcases rest with _ | ⟨c, t⟩
  · rfl
  · obtain ⟨-, -, he, hE⟩ := h.not_number c rfl
    simp only [matchExponent, if_neg (not_or.mpr ⟨he, hE⟩)]

theorem digit_cases {d : Char} (hd : d.isDigit = true) : d = '0' ∨ ('1' ≤ d ∧ d ≤ '9') := by
  have h := isDigit_iff.mp hd
  by_cases hz : d.toNat = 48
  · exact .inl ((Char.ofNat_toNat d).symm.trans (congrArg Char.ofNat hz))
  · simp only [Char.le_def, UInt32.le_def, BitVec.le_def]
    exact .inr ⟨show 49 ≤ d.toNat by omega, show d.toNat ≤ 57 by omega⟩

/-- `_match_number_unicode` reads back what `int.__repr__` writes. -/
theorem matchNumber_intRepr (parseFloat : List Char → F) (n : Int) {rest : List Char}
    (h : Delimited rest) : matchNumber parseFloat (intRepr n ++ rest) = .ok (.int n, rest) := by
  obtain ⟨d, ds, hm, hd, hds, h0⟩ := toDigits_cons n.natAbs
  have hr := h.not_number
  have htake : (ds ++ rest).takeWhile Char.isDigit = ds := by
    rw [List.takeWhile_append_of_pos hds]
    rcases rest with _ | ⟨c, t⟩
    · simp
    · rw [List.takeWhile_cons_of_neg (by simp [(hr c rfl).1]), List.append_nil]
  have hdrop : (ds ++ rest).dropWhile Char.isDigit = rest := by
    rw [List.dropWhile_append_of_pos hds]
    rcases rest with _ | ⟨c, t⟩
    · rfl
    · exact List.dropWhile_cons_of_neg (by simp [(hr c rfl).1])
  -- the integer part is the numeral, and the number stops where the numeral does
  have hint : (if d = '0' then [d] else d :: (ds ++ rest).takeWhile Char.isDigit) = d :: ds ∧
      (if d = '0' then ds ++ rest else (ds ++ rest).dropWhile Char.isDigit) = rest := by
    by_cases hz : d = '0'
    · simp only [if_pos hz, h0 hz, List.nil_append, and_self]
    · simp only [if_neg hz, htake, hdrop, and_self]
  have hsign : numberSign (intRepr n ++ rest) =
      (if n < 0 then ['-'] else [], d :: (ds ++ rest)) := by
    unfold intRepr
    split_ifs
    · rw [hm]; rfl
    · rw [hm, List.cons_append, numberSign]
      intro t ht
      exact ne_of_isDigit hd (by decide) (List.cons.inj ht).1
  have hv : digitsValue (d :: ds) = n.natAbs := by rw [← hm]; exact (toDigits_spec _).2.2
  unfold matchNumber
  rw [hsign]
  dsimp only
  rw [if_pos (digit_cases hd), hint.1, hint.2, matchFraction_of_delimited h,
    matchExponent_of_delimited h, if_pos ⟨rfl, rfl⟩, hv]
  congr
  rcases lt_or_le n 0 with hn | hn
  · rw [if_pos hn, if_neg (List.cons_ne_nil _ _)]; omega
  · rw [if_neg (not_lt.mpr hn), if_pos rfl]; omega

/-! ### Which values come back -/

mutual

/-- A value `json.loads` gives back as `json.dumps` wrote it: no `float` (its text is
`float.__repr__`, a parameter here), no key twice in one `dict`, and no string with a high
surrogate right before a low one. -/
def JsonVal.isPlain : JsonVal F → Bool
  | .null => true
  | .bool _ => true
  | .int _ => true
  | .float _ => false
  | .str s => decide (NoSurrogatePair s)
  | .array items => itemsPlain items
  | .object fields => decide (fields.map Prod.fst).Nodup && fieldsPlain fields

/-- Every item is plain. -/
def itemsPlain : List (JsonVal F) → Bool
  | [] => true
  | v :: vs => v.isPlain && itemsPlain vs

/-- Every key has no surrogate pair and every value is plain. -/
def fieldsPlain : List (List CodePoint × JsonVal F) → Bool
  | [] => true
  | (k, v) :: fs => decide (NoSurrogatePair k) && v.isPlain && fieldsPlain fs

end

/-- A separator `json.dumps` may be given: the delimiter `c` with whitespace around it, as in
`(',', ':')` and the default `(', ', ': ')`. -/
def SepOk (c : Char) (sep : List Char) : Prop :=
  ∃ w₁ w₂, sep = w₁ ++ c :: w₂ ∧ ∀ x ∈ w₁ ++ w₂, isJsonWhitespace x = true

/-- A text whose first character can start a value: an ASCII character, not whitespace and no
closing bracket. -/
def StartsValue (s : List Char) : Prop :=
  ∃ c t, s = c :: t ∧ isJsonWhitespace c = false ∧ c ≠ ']' ∧ c ≠ '\x7d' ∧ c.toNat < 128

theorem skipWs_ws_append {w : List Char} (hw : ∀ x ∈ w, isJsonWhitespace x = true)
    (s : List Char) : skipWs (w ++ s) = skipWs s :=
  List.dropWhile_append_of_pos hw

theorem skipWs_cons_of_not_ws {c : Char} (h : isJsonWhitespace c = false) (t : List Char) :
    skipWs (c :: t) = c :: t :=
  List.dropWhile_cons_of_neg (by simp [h])

theorem skipWs_of_startsValue {s : List Char} (h : StartsValue s) : skipWs s = s := by
  obtain ⟨c, t, rfl, hc, -⟩ := h
  exact skipWs_cons_of_not_ws hc t

/-- Past a separator, the scanner finds its delimiter and then the text after the
whitespace. -/
theorem SepOk.skipWs {c : Char} {sep : List Char} (h : SepOk c sep)
    (hc : isJsonWhitespace c = false) (s : List Char) :
    ∃ t, NgBencode.skipWs (sep ++ s) = c :: t ∧ NgBencode.skipWs t = NgBencode.skipWs s := by
  obtain ⟨w₁, w₂, rfl, hw⟩ := h
  refine ⟨w₂ ++ s, ?_, skipWs_ws_append (fun x hx => hw x (by simp [hx])) s⟩
  rw [List.append_assoc, skipWs_ws_append (fun x hx => hw x (by simp [hx])), List.cons_append]
  exact List.dropWhile_cons_of_neg (by simp [hc])

theorem SepOk.delimited {sep : List Char} (h : SepOk ',' sep) (s : List Char) :
    Delimited (sep ++ s) := by
  obtain ⟨w₁, w₂, rfl, hw⟩ := h
  intro x hx
  rcases w₁ with _ | ⟨y, w₁⟩
  · simp only [List.nil_append, List.cons_append, List.head?_cons, Option.mem_def,
      Option.some.injEq] at hx
    exact .inr (.inl hx.symm)
  · simp only [List.cons_append, List.head?_cons, Option.mem_def, Option.some.injEq] at hx
    exact .inl (hx ▸ hw y (by simp))

theorem delimited_cons_bracket (rest : List Char) : Delimited (']' :: rest) :=
  fun _ hx => .inr (.inr (.inl (Option.some.inj hx).symm))

theorem delimited_cons_brace (rest : List Char) : Delimited ('\x7d' :: rest) :=
  fun _ hx => .inr (.inr (.inr (Option.some.inj hx).symm))

section Dumps

variable (floatstr : F → List Char) (itemSep keySep : List Char)

theorem startsValue_intRepr (n : Int) (rest : List Char) : StartsValue (intRepr n ++ rest) := by
  obtain ⟨d, ds, hm, hd, -⟩ := toDigits_cons n.natAbs
  unfold intRepr
  split_ifs
  · exact ⟨_, _, rfl, by decide, by decide, by decide, by decide⟩
  · rw [hm]
    have hw : isJsonWhitespace d = false := by
      simp only [isJsonWhitespace, Bool.or_eq_false_iff, decide_eq_false_iff_not]
      exact ⟨⟨⟨ne_of_isDigit hd (by decide), ne_of_isDigit hd (by decide)⟩,
        ne_of_isDigit hd (by decide)⟩, ne_of_isDigit hd (by decide)⟩
    exact ⟨_, _, rfl, hw, ne_of_isDigit hd (by decide), ne_of_isDigit hd (by decide),
      toNat_lt_of_isDigit hd⟩

/-- Every plain value's text starts a value. -/
theorem startsValue_dumpsVal {v : JsonVal F} (hv : v.isPlain) (rest : List Char) :
    StartsValue (dumpsVal floatstr itemSep keySep v ++ rest) := by
  match v, hv with
  | .null, _ | .bool true, _ | .bool false, _ | .str _, _ | .array [], _ | .array (_ :: _), _
  | .object [], _ | .object (_ :: _), _ =>
    exact ⟨_, _, rfl, by decide, by decide, by decide, by decide⟩
  | .int n, _ => exact startsValue_intRepr n rest

end Dumps

/-! ### `scan_once_unicode` on what `json.dumps` writes -/

section Scan

variable (parseFloat : List Char → F)

theorem scanOnce_str (fuel : Nat) {s : List CodePoint} (hs : NoSurrogatePair s)
    (rest : List Char) :
    scanOnce parseFloat (fuel + 1) (encodeBasestringAscii s ++ rest) = .ok (.str s, rest) := by
  simp only [encodeBasestringAscii, List.cons_append, List.append_assoc, List.singleton_append]
  rw [scanOnce, if_pos rfl, scanstring_escapes s hs]
  rfl

theorem scanOnce_object (fuel : Nat) {rest t : List Char} {c : Char} (h : skipWs rest = c :: t)
    (hc : c ≠ '\x7d') : scanOnce parseFloat (fuel + 1) ('\x7b' :: rest) =
      parseObject parseFloat fuel [] (c :: t) := by
  rw [scanOnce, if_neg (by decide), if_pos rfl, h]
  split
  · next heq => exact absurd (List.cons.inj heq).1 hc
  · rfl

theorem scanOnce_array (fuel : Nat) {rest t : List Char} {c : Char} (h : skipWs rest = c :: t)
    (hc : c ≠ ']') : scanOnce parseFloat (fuel + 1) ('[' :: rest) =
      parseArray parseFloat fuel [] (c :: t) := by
  rw [scanOnce, if_neg (by decide), if_neg (by decide), if_pos rfl, h]
  split
  · next heq => exact absurd (List.cons.inj heq).1 hc
  · rfl

theorem scanOnce_const (fuel : Nat) {c : Char} {rest : List Char} {r : JsonVal F × List Char}
    (h₁ : c ≠ '\x22') (h₂ : c ≠ '\x7b') (h₃ : c ≠ '[')
    (h : matchConstant parseFloat (c :: rest) = some r) :
    scanOnce parseFloat (fuel + 1) (c :: rest) = .ok r := by
  rw [scanOnce, if_neg h₁, if_neg h₂, if_neg h₃, h]

theorem scanOnce_number (fuel : Nat) {c : Char} {rest : List Char}
    (h₁ : c ≠ '\x22') (h₂ : c ≠ '\x7b') (h₃ : c ≠ '[')
    (h : matchConstant parseFloat (c :: rest) = none) :
    scanOnce parseFloat (fuel + 1) (c :: rest) = matchNumber parseFloat (c :: rest) := by
  rw [scanOnce, if_neg h₁, if_neg h₂, if_neg h₃, h]

theorem matchConstant_intRepr (n : Int) (rest : List Char) :
    matchConstant parseFloat (intRepr n ++ rest) = none := by
  obtain ⟨d, ds, hm, hd, -⟩ := toDigits_cons n.natAbs
  have hne : ∀ x : Char, x.isDigit = false → x ≠ d := fun x hx => (ne_of_isDigit hd hx).symm
  unfold intRepr
  split_ifs <;> simp [matchConstant, hm, hne]

theorem scanOnce_intRepr (fuel : Nat) (n : Int) {rest : List Char} (h : Delimited rest) :
    scanOnce parseFloat (fuel + 1) (intRepr n ++ rest) = .ok (.int n, rest) := by
  obtain ⟨c, t, hct, -, -⟩ := startsValue_intRepr n rest
  obtain ⟨d, ds, hm, hd, -⟩ := toDigits_cons n.natAbs
  have hc : c = '-' ∨ c.isDigit := by
    unfold intRepr at hct
    split_ifs at hct
    · exact .inl (List.cons.inj hct).1.symm
    · rw [hm, List.cons_append, List.cons.injEq] at hct
      exact .inr (hct.1 ▸ hd)
  have hne : c ≠ '\x22' ∧ c ≠ '\x7b' ∧ c ≠ '[' := by
    rcases hc with rfl | hc
    · decide
    · exact ⟨ne_of_isDigit hc (by decide), ne_of_isDigit hc (by decide),
        ne_of_isDigit hc (by decide)⟩
  rw [hct, scanOnce_number parseFloat fuel hne.1 hne.2.1 hne.2.2
    (hct ▸ matchConstant_intRepr parseFloat n rest), ← hct, matchNumber_intRepr parseFloat n h]

end Scan

theorem setField_of_not_mem {acc : List (List CodePoint × JsonVal F)} {k : List CodePoint}
    (h : k ∉ acc.map Prod.fst) (v : JsonVal F) : setField acc k v = acc ++ [(k, v)] := by
  induction acc with
  | nil => rfl
  | cons p acc ih =>
    simp only [List.map_cons, List.mem_cons, not_or] at h
    rw [setField, if_neg (Ne.symm h.1), ih h.2, List.cons_append]

theorem encodeBasestringAscii_append (s : List CodePoint) (t : List Char) :
    encodeBasestringAscii s ++ t = '\x22' :: (s.flatMap escapeChar ++ '\x22' :: t) := by
  simp [encodeBasestringAscii]

theorem startsValue_encodeBasestringAscii (s : List CodePoint) (t : List Char) :
    StartsValue (encodeBasestringAscii s ++ t) :=
  ⟨_, _, encodeBasestringAscii_append s t, by decide, by decide, by decide, by decide⟩

section Roundtrip

variable (parseFloat : List Char → F) (floatstr : F → List Char) {itemSep keySep : List Char}

/-- The scanner reads back, one value, one array loop and one object loop at a time, what
`json.dumps` writes, unless its fuel runs out. -/
theorem scan_dumps (hi : SepOk ',' itemSep) (hk : SepOk ':' keySep) (fuel : Nat) :
    (∀ (v : JsonVal F) rest, v.isPlain → Delimited rest →
      (scanOnce parseFloat fuel (dumpsVal floatstr itemSep keySep v ++ rest)).Approx
        (.ok (v, rest))) ∧
    (∀ acc v vs rest, v.isPlain → itemsPlain vs →
      (parseArray parseFloat fuel acc (dumpsVal floatstr itemSep keySep v ++
        (dumpsItems floatstr itemSep keySep vs ++ ']' :: rest))).Approx
        (.ok (.array (acc ++ v :: vs), rest))) ∧
    (∀ acc k v fs rest, (acc.map Prod.fst ++ k :: fs.map Prod.fst).Nodup →
      fieldsPlain ((k, v) :: fs) →
      (parseObject parseFloat fuel acc (encodeBasestringAscii k ++ (keySep ++
        (dumpsVal floatstr itemSep keySep v ++ (dumpsFields floatstr itemSep keySep fs ++
          '\x7d' :: rest))))).Approx
        (.ok (.object (acc ++ (k, v) :: fs), rest))) := by
  induction fuel with
  | zero => exact ⟨fun _ _ _ _ => .inl rfl, fun _ _ _ _ _ _ => .inl rfl,
      fun _ _ _ _ _ _ _ => .inl rfl⟩
  | succ fuel ih =>
    obtain ⟨ihv, iha, iho⟩ := ih
    refine ⟨fun v rest hv hr => ?_, fun acc v vs rest hv hvs => ?_,
      fun acc k v fs rest hnd hfs => ?_⟩
    · match v, hv with
      | .null, _ | .bool true, _ | .bool false, _ =>
        exact .inr (scanOnce_const parseFloat fuel (by decide) (by decide) (by decide)
          (by simp [dumpsVal, matchConstant]))
      | .int n, _ => exact .inr (scanOnce_intRepr parseFloat fuel n hr)
      | .str s, hv => exact .inr (scanOnce_str parseFloat fuel (of_decide_eq_true hv) rest)
      | .array [], _ => exact .inr rfl
      | .object [], _ => exact .inr rfl
      | .array (v :: vs), hv =>
        simp only [JsonVal.isPlain, itemsPlain, Bool.and_eq_true] at hv
        have hs := startsValue_dumpsVal floatstr itemSep keySep hv.1
          (dumpsItems floatstr itemSep keySep vs ++ ']' :: rest)
        have hw := skipWs_of_startsValue hs
        obtain ⟨c, t, hct, -, hc, -⟩ := hs
        simp only [dumpsVal, List.cons_append, List.append_assoc, List.singleton_append,
          List.nil_append]
        rw [scanOnce_array parseFloat fuel (hw.trans hct) hc, ← hct]
        simpa using iha [] v vs rest hv.1 hv.2
      | .object ((k, v) :: fs), hv =>
        simp only [JsonVal.isPlain, Bool.and_eq_true, decide_eq_true_eq] at hv
        simp only [dumpsVal, List.cons_append, List.append_assoc, List.singleton_append,
          List.nil_append]
        rw [scanOnce_object parseFloat fuel (skipWs_of_startsValue
          (startsValue_encodeBasestringAscii k _) |>.trans (encodeBasestringAscii_append k _))
          (by decide), ← encodeBasestringAscii_append]
        simpa using iho [] k v fs rest (by simpa using hv.1) hv.2
    · have hdel : Delimited (dumpsItems floatstr itemSep keySep vs ++ ']' :: rest) := by
        cases vs with
        | nil => exact delimited_cons_bracket rest
        | cons v' vs' =>
          simp only [dumpsItems, List.append_assoc]
          exact hi.delimited _
      rw [parseArray]
      refine (ihv v _ hv hdel).bind ?_
      dsimp only
      cases vs with
      | nil =>
        rw [dumpsItems, List.nil_append, skipWs_cons_of_not_ws (by decide)]
        exact .inr rfl
      | cons v' vs' =>
        simp only [itemsPlain, Bool.and_eq_true] at hvs
        simp only [dumpsItems, List.append_assoc]
        obtain ⟨t, ht, ht'⟩ := hi.skipWs (by decide) (dumpsVal floatstr itemSep keySep v' ++
          (dumpsItems floatstr itemSep keySep vs' ++ ']' :: rest))
        rw [ht]
        show (parseArray parseFloat fuel (acc ++ [v]) (skipWs t)).Approx _
        rw [ht', skipWs_of_startsValue (startsValue_dumpsVal floatstr itemSep keySep hvs.1 _)]
        simpa using iha (acc ++ [v]) v' vs' rest hvs.1 hvs.2
    · simp only [fieldsPlain, Bool.and_eq_true, decide_eq_true_eq] at hfs
      have hnew : k ∉ acc.map Prod.fst := fun h =>
        (List.nodup_append.mp hnd).2.2 h (List.mem_cons_self _ _)
      have hdel : Delimited (dumpsFields floatstr itemSep keySep fs ++ '\x7d' :: rest) := by
        cases fs with
        | nil => exact delimited_cons_brace rest
        | cons f fs' =>
          simp only [dumpsFields, List.append_assoc]
          exact hi.delimited _
      obtain ⟨t, ht, ht'⟩ := hk.skipWs (by decide) (dumpsVal floatstr itemSep keySep v ++
        (dumpsFields floatstr itemSep keySep fs ++ '\x7d' :: rest))
      rw [encodeBasestringAscii_append, parseObject, if_pos rfl, scanstring_escapes k hfs.1.1,
        Outcome.ok_bind]
      dsimp only
      rw [ht]
      split
      · next r heq =>
        rw [← (List.cons.inj heq).2, ht', skipWs_of_startsValue
          (startsValue_dumpsVal floatstr itemSep keySep hfs.1.2 _)]
        refine (ihv v _ hfs.1.2 hdel).bind ?_
        dsimp only
        cases fs with
        | nil =>
          rw [dumpsFields, List.nil_append, skipWs_cons_of_not_ws (by decide)]
          exact .inr (by rw [← setField_of_not_mem hnew v]; rfl)
        | cons f fs' =>
          obtain ⟨k', v'⟩ := f
          simp only [fieldsPlain, Bool.and_eq_true] at hfs
          simp only [dumpsFields, List.append_assoc]
          obtain ⟨t', ht₂, ht₂'⟩ := hi.skipWs (by decide) (encodeBasestringAscii k' ++ (keySep ++
            (dumpsVal floatstr itemSep keySep v' ++ (dumpsFields floatstr itemSep keySep fs' ++
              '\x7d' :: rest))))
          rw [ht₂]
          show (parseObject parseFloat fuel (setField acc k v) (skipWs t')).Approx _
          rw [ht₂', skipWs_of_startsValue (startsValue_encodeBasestringAscii k' _),
            setField_of_not_mem hnew v]
          simpa using iho (acc ++ [(k, v)]) k' v' fs' rest (by simpa using hnd)
            (by simpa [fieldsPlain] using hfs.2)
      · next hne => exact absurd rfl (hne t)

/-- **`json.loads` reads back what `json.dumps` writes**, for every plain value, with the
comma and the colon as separators, whitespace around them allowed. -/
theorem jsonLoads_jsonDumps (hi : SepOk ',' itemSep) (hk : SepOk ':' keySep) (v : JsonVal F)
    (hv : v.isPlain) : jsonLoads parseFloat (jsonDumps floatstr itemSep keySep v) = .ok v := by
  unfold jsonDumps
  have hs := startsValue_dumpsVal floatstr itemSep keySep hv []
  rw [List.append_nil] at hs
  have hw := skipWs_of_startsValue hs
  have hrt := (scan_dumps parseFloat floatstr hi hk
    (jsonFuel (dumpsVal floatstr itemSep keySep v))).1 v [] hv (fun _ h => by cases h)
  rw [List.append_nil] at hrt
  have hne := ((scan_fuel_enough parseFloat (jsonFuel (dumpsVal floatstr itemSep keySep v))).1
    (dumpsVal floatstr itemSep keySep v) (by unfold jsonFuel; omega)).1
  obtain ⟨c, t, hct, -, -, -, hc⟩ := hs
  rw [jsonLoads, if_neg, hw, hrt.eq hne]
  · rfl
  · rw [hct]
    exact fun h => by simp [Option.some.inj h] at hc

/-- The `ping` command `create_ping_command` writes is read back. -/
example : jsonLoads (fun _ => ()) (jsonDumps (fun _ : Unit => []) [','] [':'] pingCommand) =
    .ok pingCommand :=
  jsonLoads_jsonDumps _ _ ⟨[], [], rfl, by simp⟩ ⟨[], [], rfl, by simp⟩ _ (by decide)

end Roundtrip

end NgBencode
