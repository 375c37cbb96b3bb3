import NgBencode.Utf8Decode

/-!
# `json.dumps` and `json.loads`

The scripts write each command as `json.dumps(command, separators=...)` and put the text in a
bencode string; the health checker reads the JSON object back out of RTPEngine's answer with
`json.loads`. CPython runs both in C (`Modules/_json.c`): the encoder `c_make_encoder` with
`c_encode_basestring_ascii`, the decoder `c_make_scanner` with `scanstring_unicode`. This module
follows those functions.

A Python `str` is a sequence of code points, surrogates included, so the strings of a JSON value
are lists of `CodePoint`, and the text `json.loads` reads is a `List Char`, which is all it is
ever given here (it comes from `bytes.decode`). A float is a parameter `F`: `float(text)` and
`float.__repr__` enter as functions, as `json` itself lets `parse_float` be replaced.

The scanner's position `idx` is the text from `idx` on, and each function returns the text
after what it read. Its recursion (values inside arrays and objects) and its two loops become
`scanOnce`, `parseObject` and `parseArray`, structurally recursive on a fuel argument. Error
positions are left out: the only caller catches every exception.

Two limits of Python are left out as well. Both directions recurse once for each array or
object level, and raise `RecursionError` past the interpreter's recursion limit; and an `int`
of more than 4300 digits makes `int.__repr__` and `int(...)` raise `ValueError`, so
`json.dumps` refuses to write it and `json.loads` to read it. The model writes and reads every
value. What is proved about the text `json.dumps` writes holds of the values within both
limits (`JsonVal.fits`), on which Python and the model agree.
-/

namespace NgBencode

/-- A code point of a Python `str`, U+0000 to U+10FFFF, surrogates included. -/
abbrev CodePoint := Fin 0x110000

/-- The code point `n`, for the codes below `0x110000` the scanner produces. -/
def CodePoint.ofNat (n : Nat) : CodePoint :=
  ⟨n % 0x110000, Nat.mod_lt _ (by decide)⟩

/-- The code points of a text. -/
def codePoints (s : List Char) : List CodePoint :=
  s.map fun c => CodePoint.ofNat c.toNat

/-- The values `json.loads` builds and `json.dumps` writes: `None`, `bool`, `int`, `float`,
`str`, `list`, and `dict` with `str` keys, its items in insertion order. -/
inductive JsonVal (F : Type) where
  | null
  | bool (b : Bool)
  | int (n : Int)
  | float (x : F)
  | str (s : List CodePoint)
  | array (items : List (JsonVal F))
  | object (fields : List (List CodePoint × JsonVal F))

variable {F : Type}

/-! ### The encoder -/

/-- `Py_hexdigits[(c >> 12) & 0xf]`, and so on down to `c & 0xf`: four lower-case hex
digits. -/
def hex4 (n : Nat) : List Char :=
  [Nat.digitChar (n / 4096 % 16), Nat.digitChar (n / 256 % 16), Nat.digitChar (n / 16 % 16),
    Nat.digitChar (n % 16)]

/-- How `c_encode_basestring_ascii` writes one code point: printable ASCII but the quote and
the backslash as itself (`S_CHAR`), the rest through `ascii_escape_unichar`: a short escape,
`\uXXXX`, or past U+FFFF a surrogate pair `Py_UNICODE_HIGH_SURROGATE`,
`Py_UNICODE_LOW_SURROGATE`. -/
def escapeChar (c : CodePoint) : List Char :=
  let n := c.val
  if 0x20 ≤ n ∧ n ≤ 0x7E ∧ n ≠ 0x5C ∧ n ≠ 0x22 then [Char.ofNat n]
  else if n = 0x5C then ['\x5c', '\x5c']
  else if n = 0x22 then ['\x5c', '\x22']
  else if n = 0x08 then ['\x5c', 'b']
  else if n = 0x0C then ['\x5c', 'f']
  else if n = 0x0A then ['\x5c', 'n']
  else if n = 0x0D then ['\x5c', 'r']
  else if n = 0x09 then ['\x5c', 't']
  else if 0x10000 ≤ n then
    '\x5c' :: 'u' :: hex4 (0xD800 - (0x10000 >>> 10) + (n >>> 10)) ++
      '\x5c' :: 'u' :: hex4 (0xDC00 + (n &&& 0x3FF))
  else '\x5c' :: 'u' :: hex4 n

/-- `encode_basestring_ascii(s)`: the string in double quotes, every code point past printable
ASCII escaped. -/
def encodeBasestringAscii (s : List CodePoint) : List Char :=
  '\x22' :: s.flatMap escapeChar ++ ['\x22']

/-- `int.__repr__`. -/
def intRepr (n : Int) : List Char :=
  if n < 0 then '-' :: Nat.toDigits 10 n.natAbs else Nat.toDigits 10 n.natAbs

section Dumps

variable (floatstr : F → List Char) (itemSep keySep : List Char)

mutual

/-- `encoder_listencode_obj`: one value, as `json.dumps(o, separators=(itemSep, keySep))`
writes it. `floatstr` is the encoder's `floatstr`: `NaN`, `Infinity`, `-Infinity`, or
`float.__repr__`. An empty list or dict is `[]` or `{}`; otherwise the items follow the
opening bracket, the second and later ones after `item_separator`, and a key is followed by
`key_separator`. Python raises where the value does not fit its limits (`JsonVal.fits`); the
model writes it. -/
def dumpsVal : JsonVal F → List Char
  | .null => "null".toList
  | .bool true => "true".toList
  | .bool false => "false".toList
  | .int n => intRepr n
  | .float x => floatstr x
  | .str s => encodeBasestringAscii s
  | .array [] => ['[', ']']
  | .array (v :: vs) => '[' :: dumpsVal v ++ dumpsItems vs ++ [']']
  | .object [] => ['\x7b', '\x7d']
  | .object ((k, v) :: fs) =>
    '\x7b' :: encodeBasestringAscii k ++ keySep ++ dumpsVal v ++ dumpsFields fs ++ ['\x7d']

/-- The items of a list after the first. -/
def dumpsItems : List (JsonVal F) → List Char
  | [] => []
  | v :: vs => itemSep ++ dumpsVal v ++ dumpsItems vs

/-- The items of a dict after the first. -/
def dumpsFields : List (List CodePoint × JsonVal F) → List Char
  | [] => []
  | (k, v) :: fs => itemSep ++ encodeBasestringAscii k ++ keySep ++ dumpsVal v ++ dumpsFields fs

end

end Dumps

mutual

/-- Whether `json` handles the value within Python's limits, with `d` levels of nesting left:
its arrays and objects nest at most `d` deep, and each `int` has at most `intMaxStrDigits`
digits. -/
def JsonVal.fits : Nat → JsonVal F → Bool
  | _, .int n => decide ((Nat.toDigits 10 n.natAbs).length ≤ intMaxStrDigits)
  | d, .array items => 0 < d && itemsFit (d - 1) items
  | d, .object fields => 0 < d && fieldsFit (d - 1) fields
  | _, _ => true

/-- Every item fits. -/
def itemsFit : Nat → List (JsonVal F) → Bool
  | _, [] => true
  | d, v :: vs => v.fits d && itemsFit d vs

/-- Every value fits. -/
def fieldsFit : Nat → List (List CodePoint × JsonVal F) → Bool
  | _, [] => true
  | d, (_, v) :: fs => v.fits d && fieldsFit d fs

end

/-- `json.dumps(obj, separators=(itemSep, keySep))`, with `ensure_ascii`, `allow_nan` and
`check_circular` at their defaults and no `indent`. -/
def jsonDumps (floatstr : F → List Char) (itemSep keySep : List Char) (v : JsonVal F) :
    List Char :=
  dumpsVal floatstr itemSep keySep v

/-- `{"command": "ping"}`, the command the health check and the ping tests send. -/
def pingCommand : JsonVal F :=
  .object [(codePoints "command".toList, .str (codePoints "ping".toList))]

/-- `json.dumps({"command": "ping"}, separators=(',', ':'))` is the text `create_ping_command`
frames. -/
example : jsonDumps (fun _ : Unit => []) [','] [':'] pingCommand =
    "\x7b\"command\":\"ping\"\x7d".toList := by
  decide

/-! ### The decoder -/

/-- `IS_WHITESPACE`: the characters the scanner skips between tokens. -/
def isJsonWhitespace (c : Char) : Bool :=
  c = ' ' || c = '\t' || c = '\n' || c = '\r'

/-- The text after the whitespace it starts with. -/
def skipWs (s : List Char) : List Char :=
  s.dropWhile isJsonWhitespace

/-- The value of a hex digit of a `\uXXXX` escape. -/
def hexValue (c : Char) : Option Nat :=
  if '0' ≤ c ∧ c ≤ '9' then some (c.toNat - 48)
  else if 'a' ≤ c ∧ c ≤ 'f' then some (c.toNat - 87)
  else if 'A' ≤ c ∧ c ≤ 'F' then some (c.toNat - 55)
  else none

/-- The four hex digits of a `\uXXXX` escape, read as `c <<= 4; c |= digit`. -/
def decodeHex4 (a b c d : Char) : Option Nat := do
  let a ← hexValue a
  let b ← hexValue b
  let c ← hexValue c
  let d ← hexValue d
  pure (((a * 16 + b) * 16 + c) * 16 + d)

/-- The escapes `\"`, `\\`, `\/`, `\b`, `\f`, `\n`, `\r`, `\t` and the code points they stand
for. -/
def backslashEscape : Char → Option Nat
  | '\x22' => some 0x22
  | '\x5c' => some 0x5C
  | '/' => some 0x2F
  | 'b' => some 0x08
  | 'f' => some 0x0C
  | 'n' => some 0x0A
  | 'r' => some 0x0D
  | 't' => some 0x09
  | _ => none

/-- A code point written in front of the rest of the string. -/
def consCode (n : Nat) (r : Outcome (List CodePoint × List Char)) :
    Outcome (List CodePoint × List Char) := do
  let (s, rest) ← r
  pure (CodePoint.ofNat n :: s, rest)

/-- `scanstring_unicode` in strict mode, from just after the opening quote: the string read and
the text after its closing quote. A `\uXXXX` escape needs a character after it, and a high
surrogate followed by `\u` and more than six characters reads the second escape too, joining
the two when it is a low surrogate (`Py_UNICODE_JOIN_SURROGATES`). -/
def scanstring : List Char → Outcome (List CodePoint × List Char)
  | [] => .raise "Unterminated string starting at"
  | '\x22' :: rest => .ok ([], rest)
  | ['\x5c'] => .raise "Unterminated string starting at"
  | '\x5c' :: 'u' :: a :: b :: c :: d :: '\x5c' :: 'u' :: e :: f :: g :: h :: r :: rest =>
    match decodeHex4 a b c d with
    | none => .raise "Invalid \\uXXXX escape"
    | some u =>
      if 0xD800 ≤ u ∧ u ≤ 0xDBFF then
        match decodeHex4 e f g h with
        | none => .raise "Invalid \\uXXXX escape"
        | some u2 =>
          if 0xDC00 ≤ u2 ∧ u2 ≤ 0xDFFF then
            consCode ((((u &&& 0x3FF) <<< 10) ||| (u2 &&& 0x3FF)) + 0x10000)
              (scanstring (r :: rest))
          else consCode u (scanstring ('\x5c' :: 'u' :: e :: f :: g :: h :: r :: rest))
      else consCode u (scanstring ('\x5c' :: 'u' :: e :: f :: g :: h :: r :: rest))
  | '\x5c' :: 'u' :: a :: b :: c :: d :: r :: rest =>
    match decodeHex4 a b c d with
    | none => .raise "Invalid \\uXXXX escape"
    | some u => consCode u (scanstring (r :: rest))
  | '\x5c' :: 'u' :: _ => .raise "Invalid \\uXXXX escape"
  | '\x5c' :: e :: rest =>
    match backslashEscape e with
    | none => .raise "Invalid \\escape"
    | some u => consCode u (scanstring rest)
  | c :: rest =>
    if c.toNat ≤ 0x1F then .raise "Invalid control character at"
    else consCode c.toNat (scanstring rest)

/-- The fraction of a number: `.` and at least one digit, or nothing. -/
def matchFraction : List Char → List Char × List Char
  | '.' :: d :: t =>
    if d.isDigit then ('.' :: d :: t.takeWhile Char.isDigit, t.dropWhile Char.isDigit)
    else ([], '.' :: d :: t)
  | t => ([], t)

/-- The sign an exponent may have, and the text after it. -/
def expSign : List Char → List Char × List Char
  | '+' :: t => (['+'], t)
  | '-' :: t => (['-'], t)
  | t => ([], t)

/-- The exponent of a number: `e` or `E`, a sign, and at least one digit, or nothing (the
scanner backtracks to the `e`). -/
def matchExponent : List Char → List Char × List Char
  | e :: t =>
    if e = 'e' ∨ e = 'E' then
      if (expSign t).2.takeWhile Char.isDigit = [] then ([], e :: t)
      else (e :: (expSign t).1 ++ (expSign t).2.takeWhile Char.isDigit,
        (expSign t).2.dropWhile Char.isDigit)
    else ([], e :: t)
  | [] => ([], [])

/-- The minus sign a number may start with, and the text after it. -/
def numberSign : List Char → List Char × List Char
  | '-' :: t => (['-'], t)
  | t => ([], t)

/-- `_match_number_unicode`: the numeral `-?(0|[1-9][0-9]*)(\.[0-9]+)?([eE][-+]?[0-9]+)?` at
the start of `s`, an `int` when it has no fraction and no exponent, else `parse_float` of its
text. -/
def matchNumber (parseFloat : List Char → F) (s : List Char) : Outcome (JsonVal F × List Char) :=
  match (numberSign s).2 with
  | d :: t =>
    if d = '0' ∨ ('1' ≤ d ∧ d ≤ '9') then
      let intPart := if d = '0' then [d] else d :: t.takeWhile Char.isDigit
      let frac := matchFraction (if d = '0' then t else t.dropWhile Char.isDigit)
      let exp := matchExponent frac.2
      if frac.1 = [] ∧ exp.1 = [] then
        .ok (.int (if (numberSign s).1 = [] then (digitsValue intPart : Int)
          else -(digitsValue intPart : Int)), exp.2)
      else .ok (.float (parseFloat ((numberSign s).1 ++ intPart ++ frac.1 ++ exp.1)), exp.2)
    else .raise "Expecting value"
  | [] => .raise "Expecting value"

/-- `PyDict_SetItem` on a dict with `str` keys: an existing key keeps its place and takes the
new value, a new key goes last. -/
def setField : List (List CodePoint × JsonVal F) → List CodePoint → JsonVal F →
    List (List CodePoint × JsonVal F)
  | [], k, v => [(k, v)]
  | (k', v') :: d, k, v => if k' = k then (k', v) :: d else (k', v') :: setField d k v

section Scan

variable (parseFloat : List Char → F)

/-- The named constants `scan_once_unicode` looks for after `n`, `t`, `f`, `N`, `I` and `-`:
`null`, `true`, `false`, and `NaN`, `Infinity`, `-Infinity`, which go to `parse_constant`, that
is `float`. -/
def matchConstant (s : List Char) : Option (JsonVal F × List Char) :=
  if "null".toList.isPrefixOf s then some (.null, s.drop 4)
  else if "true".toList.isPrefixOf s then some (.bool true, s.drop 4)
  else if "false".toList.isPrefixOf s then some (.bool false, s.drop 5)
  else if "NaN".toList.isPrefixOf s then some (.float (parseFloat "NaN".toList), s.drop 3)
  else if "Infinity".toList.isPrefixOf s then some (.float (parseFloat "Infinity".toList), s.drop 8)
  else if "-Infinity".toList.isPrefixOf s then
    some (.float (parseFloat "-Infinity".toList), s.drop 9)
  else none

mutual

/-- `scan_once_unicode`: one value at the start of the text, and the text after it. The first
character picks a string, an object, an array, or a named constant; anything else is read as a
number. -/
def scanOnce : Nat → List Char → Outcome (JsonVal F × List Char)
  | 0, _ => .outOfFuel
  | _ + 1, [] => .raise "Expecting value"
  | fuel + 1, c :: rest =>
    if c = '\x22' then do
      let (s, rest) ← scanstring rest
      pure (.str s, rest)
    else if c = '\x7b' then
      match skipWs rest with
      | '\x7d' :: rest => .ok (.object [], rest)
      | rest => parseObject fuel [] rest
    else if c = '[' then
      match skipWs rest with
      | ']' :: rest => .ok (.array [], rest)
      | rest => parseArray fuel [] rest
    else
      match matchConstant parseFloat (c :: rest) with
      | some r => .ok r
      | none => matchNumber parseFloat (c :: rest)
termination_by structural fuel => fuel

/-- The `while` loop of `_parse_object_unicode`, at a key, with the items read so far: the key,
`:`, the value, and then `}` or `,` and the next key, whitespace allowed around each. -/
def parseObject : Nat → List (List CodePoint × JsonVal F) → List Char →
    Outcome (JsonVal F × List Char)
  | 0, _, _ => .outOfFuel
  | fuel + 1, acc, c :: rest =>
    if c = '\x22' then do
      let (key, rest) ← scanstring rest
      match skipWs rest with
      | ':' :: rest => do
        let (val, rest) ← scanOnce fuel (skipWs rest)
        match skipWs rest with
        | '\x7d' :: rest => .ok (.object (setField acc key val), rest)
        | ',' :: rest => parseObject fuel (setField acc key val) (skipWs rest)
        | _ => .raise "Expecting \x27,\x27 delimiter"
      | _ => .raise "Expecting \x27:\x27 delimiter"
    else .raise "Expecting property name enclosed in double quotes"
  | _ + 1, _, [] => .raise "Expecting property name enclosed in double quotes"
termination_by structural fuel => fuel

/-- The `while` loop of `_parse_array_unicode`, at an item, with the items read so far. -/
def parseArray : Nat → List (JsonVal F) → List Char → Outcome (JsonVal F × List Char)
  | 0, _, _ => .outOfFuel
  | fuel + 1, acc, s => do
    let (val, rest) ← scanOnce fuel s
    match skipWs rest with
    | ']' :: rest => .ok (.array (acc ++ [val]), rest)
    | ',' :: rest => parseArray fuel (acc ++ [val]) (skipWs rest)
    | _ => .raise "Expecting \x27,\x27 delimiter"
termination_by structural fuel => fuel

end

/-- The fuel `json.loads` gives the scanner: two units a character and one more. -/
def jsonFuel (s : List Char) : Nat :=
  2 * s.length + 1

/-- `json.loads(s)` (`JSONDecoder.decode`): no byte order mark, whitespace, one value, and
nothing but whitespace after it. Python also raises on a text nested past the recursion limit
or holding an integer of more than 4300 digits, which the model reads. -/
def jsonLoads (s : List Char) : Outcome (JsonVal F) :=
  if s.head? = some (Char.ofNat 0xFEFF) then
    .raise "Unexpected UTF-8 BOM (decode using utf-8-sig)"
  else do
    let (obj, rest) ← scanOnce parseFloat (jsonFuel s) (skipWs s)
    if skipWs rest = [] then .ok obj else .raise "Extra data"

end Scan

/-! ### The scanner returns or raises -/

/-- A call that returns or raises, and whose text after what it read is shorter than `n`. -/
def Progress {α : Type} (o : Outcome (α × List Char)) (n : Nat) : Prop :=
  o ≠ .outOfFuel ∧ ∀ v rest, o = .ok (v, rest) → rest.length < n

section Progress

variable {α β : Type} {o : Outcome (α × List Char)} {n m : Nat}

theorem Progress.mono (h : Progress o n) (hnm : n ≤ m) : Progress o m :=
  ⟨h.1, fun v r hv => (h.2 v r hv).trans_le hnm⟩

theorem progress_ok {a : α} {rest : List Char} (h : rest.length < n) :
    Progress (.ok (a, rest)) n :=
  ⟨by simp, fun _ _ hv => by cases hv; exact h⟩

theorem progress_raise (msg : String) : Progress (.raise msg : Outcome (α × List Char)) n :=
  ⟨by simp, fun _ _ hv => by cases hv⟩

/-- A call that progresses, followed by one that progresses from where it stopped. -/
theorem Progress.bind {f : α × List Char → Outcome (β × List Char)} (h : Progress o n)
    (hf : ∀ a rest, o = .ok (a, rest) → Progress (f (a, rest)) m) : Progress (o >>= f) m := by
  refine ⟨Outcome.bind_ne_outOfFuel h.1 fun ⟨a, rest⟩ ha => (hf a rest ha).1, fun v r hv => ?_⟩
  obtain ⟨⟨a, rest⟩, ha, hf'⟩ := Outcome.bind_eq_ok.mp hv
  exact (hf a rest ha).2 v r hf'

end Progress

theorem length_dropWhile_le (p : Char → Bool) (l : List Char) :
    (l.dropWhile p).length ≤ l.length :=
  (List.dropWhile_sublist p).length_le

theorem length_skipWs_le (s : List Char) : (skipWs s).length ≤ s.length :=
  length_dropWhile_le _ _

private theorem consCode_progress {k : Nat} {t : List Char} (h : Progress (scanstring t) n) :
    Progress (consCode k (scanstring t)) n :=
  h.bind fun _ _ _ => progress_ok (h.2 _ _ ‹_›)

/-- `scanstring` returns or raises, and reads at least the closing quote. -/
theorem scanstring_progress (s : List Char) : Progress (scanstring s) s.length := by
  -- every code point read is put in front of what the rest of the string reads
  have step : ∀ k t, t.length < s.length → Progress (consCode k (scanstring t)) s.length :=
    fun k t ht => consCode_progress ((scanstring_progress t).mono ht.le)
  unfold scanstring
  split
  · exact progress_raise _
  · exact progress_ok (by simp)
  · exact progress_raise _
  · split
    · exact progress_raise _
    · split
      · split
        · exact progress_raise _
        · split <;> exact step _ _ (by simp only [List.length_cons]; omega)
      · exact step _ _ (by simp only [List.length_cons]; omega)
  · split
    · exact progress_raise _
    · exact step _ _ (by simp only [List.length_cons]; omega)
  · exact progress_raise _
  · split
    · exact progress_raise _
    · exact step _ _ (by simp only [List.length_cons]; omega)
  · split
    · exact progress_raise _
    · exact step _ _ (by simp only [List.length_cons]; omega)
termination_by s.length

theorem length_matchFraction_le (t : List Char) : (matchFraction t).2.length ≤ t.length := by
  unfold matchFraction
  split
  · next d t =>
    have := length_dropWhile_le Char.isDigit t
    split_ifs <;> simp only [List.length_cons] <;> omega
  · exact le_rfl

theorem length_expSign_le (t : List Char) : (expSign t).2.length ≤ t.length := by
  unfold expSign; split <;> simp

theorem length_numberSign_le (t : List Char) : (numberSign t).2.length ≤ t.length := by
  unfold numberSign; split <;> simp

theorem length_matchExponent_le (t : List Char) : (matchExponent t).2.length ≤ t.length := by
  unfold matchExponent
  split
  · next e t =>
    have := length_dropWhile_le Char.isDigit (expSign t).2
    have := length_expSign_le t
    split_ifs <;> simp only [List.length_cons] <;> omega
  · exact le_rfl

theorem matchNumber_progress (parseFloat : List Char → F) (s : List Char) :
    Progress (matchNumber parseFloat s) s.length := by
  have hs := length_numberSign_le s
  unfold matchNumber
  split
  · next d t h =>
    have ht : t.length < s.length := by rw [h] at hs; simp at hs; omega
    have hr : ∀ a : List Char, a.length ≤ t.length →
        (matchExponent (matchFraction a).2).2.length < s.length := fun a ha => by
      have := length_matchFraction_le a
      have := length_matchExponent_le (matchFraction a).2
      omega
    have hd := length_dropWhile_le Char.isDigit t
    dsimp only
    split_ifs
    all_goals first
      | exact progress_raise _
      | exact progress_ok (hr _ le_rfl)
      | exact progress_ok (hr _ hd)
  · exact progress_raise _

section Fuel

variable (parseFloat : List Char → F)

theorem matchConstant_length {s rest : List Char} {v : JsonVal F}
    (h : matchConstant parseFloat s = some (v, rest)) : rest.length < s.length := by
  unfold matchConstant at h
  have : ∀ p : List Char, p.isPrefixOf s → p ≠ [] → (s.drop p.length).length < s.length :=
    fun p hp hne => by
      have := (List.isPrefixOf_iff_prefix.mp hp).length_le
      have := List.length_pos.mpr hne
      simp only [List.length_drop]; omega
  split_ifs at h with h1 h2 h3 h4 h5 h6 <;> cases h
  · exact this _ h1 (by simp)
  · exact this _ h2 (by simp)
  · exact this _ h3 (by simp)
  · exact this _ h4 (by simp)
  · exact this _ h5 (by simp)
  · exact this _ h6 (by simp)

theorem scan_fuel_enough (fuel : Nat) :
    (∀ s, 2 * s.length < fuel → Progress (scanOnce parseFloat fuel s) s.length) ∧
    (∀ acc s, 2 * s.length < fuel → Progress (parseObject parseFloat fuel acc s) s.length) ∧
    (∀ acc s, 2 * s.length + 1 < fuel → Progress (parseArray parseFloat fuel acc s) s.length) := by
  induction fuel with
  | zero => exact ⟨fun _ h => absurd h (by omega), fun _ _ h => absurd h (by omega),
      fun _ _ h => absurd h (by omega)⟩
  | succ fuel ih =>
    obtain ⟨ihv, iho, iha⟩ := ih
    refine ⟨fun s hf => ?_, fun acc s hf => ?_, fun acc s hf => ?_⟩
    · rcases s with _ | ⟨c, rest⟩
      · exact progress_raise _
      have hw := length_skipWs_le rest
      simp only [List.length_cons] at hf
      simp only [scanOnce]
      split_ifs
      · exact (scanstring_progress rest).bind fun _ r h =>
          progress_ok (((scanstring_progress rest).2 _ _ h).trans (by simp))
      · split
        · exact progress_ok (by simp_all; omega)
        · exact ((iho _ _ (by omega)).mono (by simp; omega))
      · split
        · exact progress_ok (by simp_all; omega)
        · exact ((iha _ _ (by omega)).mono (by simp; omega))
      · split
        · next r h => exact progress_ok (matchConstant_length parseFloat h)
        · exact matchNumber_progress parseFloat _
    · rcases s with _ | ⟨c, rest⟩
      · exact progress_raise _
      simp only [List.length_cons] at hf
      simp only [parseObject]
      split_ifs
      · refine (scanstring_progress rest).bind fun key r₁ h₁ => ?_
        have hr₁ := (scanstring_progress rest).2 _ _ h₁
        have hw₁ := length_skipWs_le r₁
        split
        · next r₂ h₂ =>
          have hw₂ := length_skipWs_le r₂
          have hl₂ : r₂.length + 1 = (skipWs r₁).length := by rw [h₂]; rfl
          refine (ihv _ (by omega)).bind fun val r₃ h₃ => ?_
          have hr₃ := (ihv _ (by omega)).2 _ _ h₃
          have hw₃ := length_skipWs_le r₃
          split
          · next r₄ h₄ =>
            have : r₄.length + 1 = (skipWs r₃).length := by rw [h₄]; rfl
            exact progress_ok (by simp; omega)
          · next r₄ h₄ =>
            have : r₄.length + 1 = (skipWs r₃).length := by rw [h₄]; rfl
            have := length_skipWs_le r₄
            exact (iho _ _ (by omega)).mono (by simp; omega)
          · exact progress_raise _
        · exact progress_raise _
      · exact progress_raise _
    · simp only [parseArray]
      refine (ihv _ (by omega)).bind fun val r₁ h₁ => ?_
      have hr₁ := (ihv _ (by omega)).2 _ _ h₁
      have hw₁ := length_skipWs_le r₁
      split
      · next r₂ h₂ =>
        have : r₂.length + 1 = (skipWs r₁).length := by rw [h₂]; rfl
        exact progress_ok (by omega)
      · next r₂ h₂ =>
        have : r₂.length + 1 = (skipWs r₁).length := by rw [h₂]; rfl
        have := length_skipWs_le r₂
        exact (iha _ _ (by omega)).mono (by omega)
      · exact progress_raise _

/-- **`json.loads` returns or raises on every text.** -/
theorem jsonLoads_ne_outOfFuel (s : List Char) : jsonLoads parseFloat s ≠ .outOfFuel := by
  unfold jsonLoads
  split_ifs
  · simp
  · have := length_skipWs_le s
    refine Outcome.bind_ne_outOfFuel
      ((scan_fuel_enough parseFloat _).1 _ (by unfold jsonFuel; omega)).1 fun ⟨_, _⟩ _ => ?_
    dsimp only
    split_ifs <;> simp

end Fuel

end NgBencode
