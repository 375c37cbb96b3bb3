import Mathlib.Data.Nat.Digits
import NgBencode.Str

/-!
# Python's `int` on a `str`, and `repr`

`parse_bencode` and `validate_bencode_structure` read every numeral with `int(...)`, and the
scripts write every length with an f-string, `f'{len(s)}'`. This module models CPython's
`int(s)` in base 10 as `PyLong_FromUnicodeObject` computes it: each character is first mapped
to ASCII (`_PyUnicode_TransformDecimalAndSpaceToASCII`), and `PyLong_FromString` then reads the
ASCII text. What it accepts is wider than bencode's numerals: surrounding whitespace, a `+` or
`-` sign, single underscores between digits, and every Unicode decimal digit.

A failure raises `ValueError` with the text's `repr`, so `repr` is modelled too.

Python 3.11 and later also refuse a decimal text of more than `sys.get_int_max_str_digits()`
digits, 4300 by default (`intMaxStrDigits`), with another `ValueError`. The model of `int`
leaves that limit out: it reads every numeral. The results it could bear on carry it as a
bound instead, on the numerals of a word (`Numerals.limited`), on the `int`s of a JSON value
(`JsonVal.fits`), or on the message of the error (`validateBencodeStructure_total`).

## Main results

* `int_toDigits`: `int` reads back what `f'{n}'` writes.
* `int_nonneg_of_isdigit`: a text that starts with a character for which `str.isdigit` holds
  reads as a number that is not negative. Both scripts rely on this when they add a length
  read from the text to a position.
-/

namespace NgBencode

/-! ### `PyLong_FromString` in base 10 -/

/-- `Py_ISSPACE`: the ASCII whitespace `int` skips around a numeral, `\t` to `\r` and the
space. -/
def isAsciiSpace (c : Char) : Bool :=
  c = ' ' || (9 ≤ c.toNat && c.toNat ≤ 13)

/-- A character of the run `long_from_string_base` scans in base 10. -/
def isDigitOrUnderscore (c : Char) : Bool :=
  c.isDigit || c = '_'

/-- Two adjacent underscores somewhere in the run. -/
def doubledUnderscore : List Char → Bool
  | '_' :: '_' :: _ => true
  | _ :: s => doubledUnderscore s
  | [] => false

/-- The checks `long_from_string_base` makes of the scanned run: it is not empty, and no
underscore leads it, trails it, or follows another. -/
def underscoresOk (run : List Char) : Bool :=
  run ≠ [] && run.head? ≠ some '_' && run.getLast? ≠ some '_' && !doubledUnderscore run

/-- The value of a run of ASCII digits, underscores skipped. -/
def digitsValue (run : List Char) : Nat :=
  run.foldl (fun n c => if c = '_' then n else 10 * n + (c.toNat - 48)) 0

/-- The sign `PyLong_FromString` reads: whether the number is negative, and the text after
the sign. -/
def readSign : List Char → Bool × List Char
  | c :: s => if c = '-' then (true, s) else if c = '+' then (false, s) else (false, c :: s)
  | [] => (false, [])

/-- `PyLong_FromString(buffer, &end, 10)` together with the check `int` makes that it read
the whole buffer: leading whitespace, a sign, the digit run, trailing whitespace, nothing
else. -/
def longFromString (s : List Char) : Option Int :=
  let (negative, t) := readSign (s.dropWhile isAsciiSpace)
  let run := t.takeWhile isDigitOrUnderscore
  if underscoresOk run && (t.dropWhile isDigitOrUnderscore).all isAsciiSpace then
    some (if negative then -(digitsValue run : Int) else digitsValue run)
  else none

/-! ### `int` on a `str` -/

/-- `_PyUnicode_TransformDecimalAndSpaceToASCII` on one character: ASCII is kept, other
whitespace becomes a space, a decimal digit its ASCII digit, and anything else `?`, which no
numeral contains. (CPython keeps DEL where this writes it, and stops at the first `?`; the
text is refused in every such case.) -/
def toAscii (u : UnicodeDb) (c : Char) : Char :=
  if c.toNat < 128 then c
  else if u.isspace c then ' '
  else match u.decimal c with
    | some d => Char.ofNat (48 + d)
    | none => '?'

/-- Lower-case hex digits of `n`, padded with zeros to `width`. -/
def hexPad (width n : Nat) : List Char :=
  List.replicate (width - (Nat.toDigits 16 n).length) '0' ++ Nat.toDigits 16 n

/-- One character of `repr(s)` between the quotes `quote`, as `unicode_repr` writes it. -/
def reprChar (u : UnicodeDb) (quote c : Char) : List Char :=
  let backslash := Char.ofNat 92
  if c = quote ∨ c = backslash then [backslash, c]
  else if c = '\t' then [backslash, 't']
  else if c = '\n' then [backslash, 'n']
  else if c = '\r' then [backslash, 'r']
  else if c.toNat < 32 ∨ c.toNat = 127 then backslash :: 'x' :: hexPad 2 c.toNat
  else if c.toNat < 127 ∨ u.isprintable c then [c]
  else if c.toNat ≤ 0xFF then backslash :: 'x' :: hexPad 2 c.toNat
  else if c.toNat ≤ 0xFFFF then backslash :: 'u' :: hexPad 4 c.toNat
  else backslash :: 'U' :: hexPad 8 c.toNat

/-- `repr(s)`: single quotes, or double quotes when `s` holds a single quote and no double
quote. -/
def pyRepr (u : UnicodeDb) (s : List Char) : List Char :=
  let quote := if Char.ofNat 39 ∈ s ∧ Char.ofNat 34 ∉ s then Char.ofNat 34 else Char.ofNat 39
  quote :: s.flatMap (reprChar u quote) ++ [quote]

/-- The message of the `ValueError` that `int` raises,
`"invalid literal for int() with base %d: %.200R"`: the `repr` of the text, cut at 200
characters. -/
def intError (u : UnicodeDb) (s : List Char) : String :=
  "invalid literal for int() with base 10: " ++ String.mk ((pyRepr u s).take 200)

/-- `sys.get_int_max_str_digits()` as Python sets it: `int()` raises `ValueError` on a decimal
text of more digits, and `str()` on an `int` of more. -/
def intMaxStrDigits : Nat := 4300

/-- `int(s)` for a `str` `s`, within `intMaxStrDigits`: past it Python raises the digit-limit
error, which this model does not. -/
def int (u : UnicodeDb) (s : List Char) : Outcome Int :=
  match longFromString (s.map (toAscii u)) with
  | some n => .ok n
  | none => .raise (intError u s)

/-- `int` returns or raises; it has no loop to run out of fuel. -/
theorem int_ne_outOfFuel (u : UnicodeDb) (s : List Char) : int u s ≠ .outOfFuel := by
  unfold int; split <;> simp

/-- The only exception the model of `int` raises is its `ValueError` about the text. -/
theorem eq_intError_of_int {u : UnicodeDb} {s : List Char} {msg : String}
    (h : int u s = .raise msg) : msg = intError u s := by
  unfold int at h; split at h <;> cases h; rfl

/-! ### ASCII digits -/

theorem isDigit_iff {c : Char} : c.isDigit = true ↔ 48 ≤ c.toNat ∧ c.toNat ≤ 57 := by
  simp [Char.isDigit, Char.le_def, UInt32.le_def, Char.toNat]
  rfl

section Digits

variable {c : Char}

theorem ne_of_isDigit {d : Char} (hc : c.isDigit = true) (hd : d.isDigit = false) : c ≠ d := by
  rintro rfl
  simp_all

/-- A character for which `str.isdigit` holds is none of the ASCII characters that are not
digits. -/
theorem ne_of_isdigit {u : UnicodeDb} {d : Char} (hc : isdigit u c = true) (hd : d.toNat < 128)
    (hd' : d.isDigit = false) : c ≠ d := by
  rintro rfl
  rw [isdigit_of_ascii hd, hd'] at hc
  exact absurd hc (by decide)

theorem toNat_lt_of_isDigit (hc : c.isDigit = true) : c.toNat < 128 := by
  have := isDigit_iff.mp hc
  omega

theorem isAsciiSpace_of_isDigit (hc : c.isDigit = true) : isAsciiSpace c = false := by
  have h := isDigit_iff.mp hc
  have hs : c ≠ ' ' := ne_of_isDigit hc rfl
  simp [isAsciiSpace, hs]
  omega

theorem readSign_of_ne {s : List Char} (h₁ : c ≠ '-') (h₂ : c ≠ '+') :
    readSign (c :: s) = (false, c :: s) := by
  simp [readSign, h₁, h₂]

theorem doubledUnderscore_eq_false {run : List Char} (h : '_' ∉ run) :
    doubledUnderscore run = false := by
  induction run with
  | nil => rfl
  | cons c run ih =>
    rw [List.mem_cons, not_or] at h
    cases run with
    | nil => simp [doubledUnderscore]
    | cons d run => simp [doubledUnderscore, Ne.symm h.1, ih h.2]

/-- A run of ASCII digits passes `long_from_string_base`'s checks, and reads as its value. -/
theorem longFromString_digits {run : List Char} (hne : run ≠ [])
    (hd : ∀ c ∈ run, c.isDigit = true) :
    longFromString run = some (digitsValue run : Int) ∧
      longFromString ('-' :: run) = some (-(digitsValue run : Int)) := by
  obtain ⟨c, s, rfl⟩ := List.exists_cons_of_ne_nil hne
  have hc := hd c (List.mem_cons_self _ _)
  have hu : '_' ∉ c :: s := fun h => absurd (hd _ h) (by decide)
  have hrun : ∀ x ∈ c :: s, isDigitOrUnderscore x = true := fun x hx => by
    simp [isDigitOrUnderscore, hd x hx]
  have hok : underscoresOk (c :: s) = true := by
    have hl : (c :: s).getLast? ≠ some '_' := fun h => hu (List.mem_of_getLast?_eq_some h)
    simp [underscoresOk, show c ≠ '_' from ne_of_isDigit hc rfl, hl,
      doubledUnderscore_eq_false hu]
  have hw : (c :: s).dropWhile isAsciiSpace = c :: s :=
    List.dropWhile_cons_of_neg (by simp [isAsciiSpace_of_isDigit hc])
  have hm : ('-' :: c :: s).dropWhile isAsciiSpace = '-' :: c :: s :=
    List.dropWhile_cons_of_neg (by decide)
  have h₁ : (c :: s).takeWhile isDigitOrUnderscore = c :: s := List.takeWhile_eq_self_iff.mpr hrun
  have h₂ : (c :: s).dropWhile isDigitOrUnderscore = [] := List.dropWhile_eq_nil_iff.mpr hrun
  constructor
  · simp only [longFromString, hw, readSign_of_ne (ne_of_isDigit hc rfl) (ne_of_isDigit hc rfl),
      h₁, h₂, hok]
    rfl
  · simp only [longFromString, hm, readSign, if_pos, h₁, h₂, hok]
    rfl

/-- `int` keeps an ASCII text as it is before reading it. -/
theorem int_of_ascii (u : UnicodeDb) {s : List Char} (h : ∀ c ∈ s, c.toNat < 128) :
    int u s = match longFromString s with
      | some n => .ok n
      | none => .raise (intError u s) := by
  have : s.map (toAscii u) = s :=
    (List.map_congr_left fun c hc => if_pos (h c hc)).trans (List.map_id s)
  simp [int, this]

/-- `int` of a run of ASCII digits, with or without a minus sign. -/
theorem int_digits (u : UnicodeDb) {run : List Char} (hne : run ≠ [])
    (hd : ∀ c ∈ run, c.isDigit = true) :
    int u run = .ok (digitsValue run : Int) ∧
      int u ('-' :: run) = .ok (-(digitsValue run : Int)) := by
  have ha : ∀ c ∈ run, c.toNat < 128 := fun c hc => toNat_lt_of_isDigit (hd c hc)
  obtain ⟨h₁, h₂⟩ := longFromString_digits hne hd
  refine ⟨by rw [int_of_ascii u ha, h₁], ?_⟩
  rw [int_of_ascii u (by simpa using ha), h₂]

/-- `int` refuses a text that starts with an ASCII character that is not whitespace, a sign,
a digit or an underscore. -/
theorem int_ne_ok_of_head (u : UnicodeDb) {s : List Char} {k : Int} (hc : c.toNat < 128)
    (hs : isAsciiSpace c = false) (h₁ : c ≠ '-') (h₂ : c ≠ '+')
    (hd : isDigitOrUnderscore c = false) : int u (c :: s) ≠ .ok k := by
  have hw : (c :: s.map (toAscii u)).dropWhile isAsciiSpace = c :: s.map (toAscii u) :=
    List.dropWhile_cons_of_neg (by simp [hs])
  have ht : (c :: s.map (toAscii u)).takeWhile isDigitOrUnderscore = [] :=
    List.takeWhile_cons_of_neg (by simp [hd])
  simp [int, toAscii, hc, longFromString, hw, readSign_of_ne h₁ h₂, ht, underscoresOk]

end Digits

/-! ### `f'{n}'` -/

private theorem digitChar_spec : ∀ d : Fin 10,
    (Nat.digitChar d).isDigit = true ∧ (Nat.digitChar d).toNat = 48 + d := by
  decide

private theorem ofNat_isDigit : ∀ d : Fin 10, (Char.ofNat (48 + d)).isDigit = true := by
  decide

/-- `Nat.toDigitsCore` puts the digits of `n` in front of what it was given, most significant
first. -/
private theorem toDigitsCore_spec (fuel n : Nat) (ds : List Char) (hn : n < fuel) :
    ∃ pre, Nat.toDigitsCore 10 fuel n ds = pre ++ ds ∧ pre ≠ [] ∧
      (∀ c ∈ pre, c.isDigit = true) ∧ digitsValue pre = n := by
  induction fuel generalizing n ds with
  | zero => omega
  | succ fuel ih =>
    obtain ⟨hdig, hval⟩ := digitChar_spec ⟨n % 10, Nat.mod_lt _ (by decide)⟩
    have hne : Nat.digitChar (n % 10) ≠ '_' := ne_of_isDigit hdig (by decide)
    rw [Nat.toDigitsCore]
    split
    · next h =>
      refine ⟨[Nat.digitChar (n % 10)], rfl, by simp, by simpa using hdig, ?_⟩
      simp only [digitsValue, List.foldl, hne, if_false, hval]
      omega
    · next h =>
      obtain ⟨pre, hpre, -, hd, hv⟩ := ih (n / 10) (Nat.digitChar (n % 10) :: ds) (by omega)
      refine ⟨pre ++ [Nat.digitChar (n % 10)], by simp [hpre], by simp, ?_, ?_⟩
      · simpa [or_imp, forall_and] using ⟨hd, hdig⟩
      · simp only [digitsValue, List.foldl_append, List.foldl, hne, if_false, hval] at hv ⊢
        rw [hv]
        omega

/-- What `f'{n}'` writes: a nonempty run of ASCII digits whose value is `n`. -/
theorem toDigits_spec (n : Nat) :
    Nat.toDigits 10 n ≠ [] ∧ (∀ c ∈ Nat.toDigits 10 n, c.isDigit = true) ∧
      digitsValue (Nat.toDigits 10 n) = n := by
  obtain ⟨pre, h, hne, hd, hv⟩ := toDigitsCore_spec (n + 1) n [] (Nat.lt_succ_self n)
  rw [Nat.toDigits, h, List.append_nil]
  exact ⟨hne, hd, hv⟩

theorem not_mem_toDigits (c : Char) (hc : c.isDigit = false) (n : Nat) :
    c ∉ Nat.toDigits 10 n :=
  fun hm => by simp [(toDigits_spec n).2.1 _ hm] at hc

/-- **`int` reads back what `f'{n}'` writes.** -/
theorem int_toDigits (u : UnicodeDb) (n : Nat) : int u (Nat.toDigits 10 n) = .ok (n : Int) := by
  obtain ⟨hne, hd, hv⟩ := toDigits_spec n
  rw [(int_digits u hne hd).1, hv]

/-! ### Lengths read from the text are not negative -/

/-- A text led by something other than whitespace or a minus sign reads as a number that is
not negative. -/
theorem longFromString_nonneg {d : Char} {s : List Char} {k : Int} (hd : isAsciiSpace d = false)
    (hm : d ≠ '-') (h : longFromString (d :: s) = some k) : 0 ≤ k := by
  have hw : (d :: s).dropWhile isAsciiSpace = d :: s :=
    List.dropWhile_cons_of_neg (by simp [hd])
  have hsign : ∃ t, readSign (d :: s) = (false, t) := by
    by_cases hp : d = '+'
    · exact ⟨s, by simp [readSign, hm, hp]⟩
    · exact ⟨d :: s, readSign_of_ne hm hp⟩
  obtain ⟨t, ht⟩ := hsign
  simp only [longFromString, hw, ht, Bool.false_eq_true, if_false] at h
  split_ifs at h
  simp only [Option.some.injEq] at h
  omega

/-- What `toAscii` makes of a character for which `str.isdigit` holds: an ASCII digit, or
`?`. -/
theorem toAscii_of_isdigit {u : UnicodeDb} {c : Char} (h : isdigit u c = true) :
    (toAscii u c).isDigit = true ∨ toAscii u c = '?' := by
  unfold toAscii
  by_cases ha : c.toNat < 128
  · rw [isdigit_of_ascii ha] at h
    simp [ha, h]
  · rw [isdigit, if_neg ha] at h
    simp only [ha, if_false, u.isspace_eq_false_of_isdigit c h, Bool.false_eq_true]
    split
    · next d _ => exact .inl (ofNat_isDigit d)
    · exact .inr rfl

/-- **A numeral that starts with a digit is not negative**: `str.isdigit` characters are neither
whitespace nor signs, so `int` reads no sign before them. -/
theorem int_nonneg_of_isdigit {u : UnicodeDb} {c : Char} {s : List Char} {k : Int}
    (hc : isdigit u c = true) (h : int u (c :: s) = .ok k) : 0 ≤ k := by
  simp only [int, List.map_cons] at h
  split at h
  · next n hn =>
    cases h
    rcases toAscii_of_isdigit hc with hd | hq
    · exact longFromString_nonneg (isAsciiSpace_of_isDigit hd) (ne_of_isDigit hd rfl) hn
    · rw [hq] at hn
      exact longFromString_nonneg (by decide) (by decide) hn
  · cases h

end NgBencode
