import NgBencode.JsonWire

/-!
# Reading RTPEngine's answers

Two scripts judge the answer RTPEngine sends back. `test-rtpengine-health.py` decodes it with
`errors='ignore'`, cuts out the text from its first `{` to its last `}`, reads it with
`json.loads`, and calls RTPEngine healthy when the `dict` it gets has `result` equal to `ok`
(`parseResponse`, `testHealth`). `test-rtpengine-patterns.py` calls an answer a success when,
lower-cased, it holds one of `ok`, `pong`, `result` (`sendAndCheckResponse`), and
`test-rtpengine-bencode.py` when it holds `result` and `ok` (`testRtpengineFormat`).

What the health check reads is what `json.dumps` wrote: an object written into an answer that
the socket reads whole, with no `{` before it and no `}` after it, is read back, and the
verdict is its `result` (`testHealth_jsonDumps`). What it returns is a `dict` or nothing, as its annotation says
(`parseResponse_object`). RTPEngine's own answers are bencode dictionaries such as
`cookie d6:result4:ponge`, with no `{` at all, and the health check calls every such answer
unhealthy (`testHealth_of_not_mem`). The pattern test errs the other way: every answer of
RTPEngine is a dictionary with the key `result`, so it counts the error answer as a success
(`sendAndCheckResponse_of_result`). The format test's verdict turns on the cookie RTPEngine
echoes: a cookie holding `ok` passes every such answer, and without one the answer to a ping
fails (`testRtpengineFormat_ngAnswer`).

The sockets are left out: each function starts from the datagram RTPEngine sends, or `none`
for a timeout, and keeps what `sock.recvfrom` keeps of it, its first 4096 bytes for the health
check and 1024 for the other two (`recvfrom`). Of the health check's prints, those of a `str`
result or error reason can raise (`printRaises`); the others print ASCII or `repr`s. The one
of `json.dumps(parsed, indent=2)` raises only past Python's limits, which `json.loads` has
already kept (`JsonVal.fits`).

## Main results

* `parseResponse_object`: `parse_response` returns a `dict` or `None`.
* `testHealth_of_not_mem`: an answer without a `{` byte is unhealthy.
* `testHealth_jsonDumps`: an answer holding one object written by `json.dumps` is healthy
  exactly when its `result` is `ok`, and returns the object unless a print of its result
  raises.
* `sendAndCheckResponse_of_result`: every answer dictionary with a `result`, wherever it
  stands and whatever its value, the error answer included, is a success for
  `send_and_check_response`.
* `testRtpengineFormat_ngAnswer`: `test_rtpengine_format` passes every such answer when the
  cookie holds `ok`, and fails the ping answer when it does not.
-/

namespace NgBencode

variable {F : Type}

/-! ### `str.find` and `str.rfind` -/

/-- `s.rfind(c)`, with `none` where Python returns `-1`. -/
def rfind : List Char → Char → Option Nat
  | [], _ => none
  | x :: xs, c =>
    match rfind xs c with
    | some i => some (i + 1)
    | none => if x = c then some 0 else none

theorem rfind_eq_none {c : Char} {s : List Char} (h : c ∉ s) : rfind s c = none := by
  induction s with
  | nil => rfl
  | cons x s ih =>
    rw [List.mem_cons, not_or] at h
    rw [rfind, ih h.2, if_neg (Ne.symm h.1)]

theorem rfind_append_of_not_mem {c : Char} (s : List Char) {t : List Char} (h : c ∉ t) :
    rfind (s ++ t) c = rfind s c := by
  induction s with
  | nil => exact rfind_eq_none h
  | cons x s ih => rw [List.cons_append, rfind, ih, rfind]

theorem rfind_append_singleton (c : Char) (s : List Char) :
    rfind (s ++ [c]) c = some s.length := by
  induction s with
  | nil => simp [rfind]
  | cons x s ih => rw [List.cons_append, rfind, ih, List.length_cons]

theorem find_eq_none {c : Char} {s : List Char} (h : c ∉ s) : find s c 0 = none := by
  simp only [find, List.drop_zero, Option.map_eq_none', List.indexOf?_eq_none_iff, beq_iff_eq]
  exact fun x hx hxc => h (hxc ▸ hx)

/-- What `find` returns is where the character stands. -/
theorem drop_of_find {data : List Char} {c : Char} {pos j : Nat} (h : find data c pos = some j) :
    data.drop j = c :: data.drop (j + 1) := by
  obtain ⟨i, hi, rfl⟩ := Option.map_eq_some'.mp h
  have e := (eq_of_indexOf? hi).1
  have hd : (data.drop pos).drop i = c :: (data.drop pos).drop (i + 1) :=
    List.append_cancel_left ((List.take_append_drop i _).trans e)
  rwa [List.drop_drop, List.drop_drop, ← Nat.add_assoc] at hd

/-! ### What `json.loads` returns on a text that starts with `{` -/

section Objects

variable (parseFloat : List Char → F)

/-- The object loop only ever returns a `dict`. -/
theorem parseObject_object (fuel : Nat) : ∀ {acc s v rest},
    parseObject parseFloat fuel acc s = .ok (v, rest) → ∃ fields, v = .object fields := by
  induction fuel with
  | zero => intro _ _ _ _ h; cases h
  | succ fuel ih =>
    intro acc s v rest h
    rcases s with _ | ⟨c, s⟩
    · cases h
    rw [parseObject] at h
    split_ifs at h
    obtain ⟨⟨key, r₁⟩, -, h⟩ := Outcome.bind_eq_ok.mp h
    dsimp only at h
    split at h
    · obtain ⟨⟨val, r₂⟩, -, h⟩ := Outcome.bind_eq_ok.mp h
      dsimp only at h
      split at h
      · cases h; exact ⟨_, rfl⟩
      · exact ih h
      · cases h
    · cases h

/-- `scan_once` at a `{` only ever returns a `dict`. -/
theorem jsonLoads_object {s : List Char} {v : JsonVal F}
    (h : jsonLoads parseFloat ('\x7b' :: s) = .ok v) : ∃ fields, v = .object fields := by
  rw [jsonLoads, if_neg (by rw [List.head?_cons]; decide), skipWs_cons_of_not_ws (by decide)] at h
  obtain ⟨⟨obj, rest⟩, h₁, h⟩ := Outcome.bind_eq_ok.mp h
  have e : obj = v := by
    dsimp only at h
    split_ifs at h
    exact Outcome.ok.inj h
  subst e
  generalize jsonFuel _ = fuel at h₁
  rcases fuel with _ | fuel
  · cases h₁
  rw [scanOnce, if_neg (by decide), if_pos rfl] at h₁
  split at h₁
  · cases h₁; exact ⟨_, rfl⟩
  · exact parseObject_object parseFloat fuel h₁

end Objects

/-! ### `sock.recvfrom` -/

/-- `sock.recvfrom(bufsize)` on a UDP socket, from the datagram that arrived: its first
`bufsize` bytes, the rest of it discarded. -/
def recvfrom (bufsize : Nat) (datagram : List UInt8) : List UInt8 :=
  datagram.take bufsize

theorem recvfrom_of_length_le {bufsize : Nat} {datagram : List UInt8}
    (h : datagram.length ≤ bufsize) : recvfrom bufsize datagram = datagram :=
  List.take_of_length_le h

/-! ### `parse_response` and `test_health` -/

section Health

variable (parseFloat : List Char → F)

/-- `parse_response(response)` (`test-rtpengine-health.py`): the answer decoded with
`errors='ignore'`, and `json.loads` of its text from the first `{` to the last `}`; `none`
when either is missing or `json.loads` raises. -/
def parseResponse (response : List UInt8) : Option (JsonVal F) :=
  let responseStr := decodeUtf8Ignore response
  match find responseStr '\x7b' 0, rfind responseStr '\x7d' with
  | some jsonStart, some jsonEnd =>
    match jsonLoads parseFloat (slice responseStr jsonStart (jsonEnd + 1)) with
    | .ok parsed => some parsed
    | _ => none
  | _, _ => none

/-- `parsed.get('result') == 'ok'` for a `dict`. -/
def resultIsOk (fields : List (List CodePoint × JsonVal F)) : Bool :=
  match fields.lookup (codePoints "result".toList) with
  | some (.str result) => decide (result = codePoints "ok".toList)
  | _ => false

/-- Whether `print(f"...{x}")` raises `UnicodeEncodeError` on a UTF-8 `sys.stdout`: `str` of
a `str` is the string itself, and UTF-8 cannot encode a surrogate; `str` of any other value
escapes its surrogates as `repr` does, and `None` prints as `None`. -/
def printRaises : Option (JsonVal F) → Bool
  | some (.str s) => s.any fun c => decide (0xD800 ≤ c.val ∧ c.val ≤ 0xDFFF)
  | _ => false

/-- `test_health()` from the datagram RTPEngine sends, `none` for a timeout, of which
`sock.recvfrom(4096)` keeps the first 4096 bytes: healthy when the parsed answer's `result` is
the string `ok`. Otherwise it prints the result, and the `error-reason` when there is one; a
print that raises is caught by the outer `except`, which returns `(False, None)`. A parsed
value that is no `dict` has no `get`, and its `AttributeError` is caught the same way. -/
def testHealth (received : Option (List UInt8)) : Bool × Option (JsonVal F) :=
  match received with
  | none => (false, none)
  | some datagram =>
    match parseResponse parseFloat (recvfrom 4096 datagram) with
    | none => (false, none)
    | some (.object fields) =>
      if resultIsOk fields then (true, some (.object fields))
      else if printRaises (fields.lookup (codePoints "result".toList)) ||
          printRaises (fields.lookup (codePoints "error-reason".toList)) then (false, none)
      else (false, some (.object fields))
    | some _ => (false, none)

theorem jsonLoads_nil : jsonLoads parseFloat [] = .raise "Expecting value" := rfl

/-- **`parse_response` returns a `dict` or `None`**, as its annotation `Optional[dict]` says:
the text it gives `json.loads` is empty or starts with `{`. -/
theorem parseResponse_object {response : List UInt8} {v : JsonVal F}
    (h : parseResponse parseFloat response = some v) : ∃ fields, v = .object fields := by
  unfold parseResponse at h
  dsimp only at h
  split at h
  · next jsonStart jsonEnd hs _ =>
    split at h
    · next parsed hl =>
      cases h
      rw [slice, drop_of_find hs] at hl
      cases hk : jsonEnd + 1 - jsonStart with
      | zero => rw [hk, List.take_zero, jsonLoads_nil] at hl; cases hl
      | succ k => rw [hk, List.take_succ_cons] at hl; exact jsonLoads_object parseFloat hl
    · cases h
  · cases h

theorem parseResponse_object_ok :
    parseResponse (fun _ => ()) (encodeUtf8 "\x7b\x22result\x22: \x22ok\x22\x7d".toList) =
        some (.object [(codePoints "result".toList, .str (codePoints "ok".toList))]) ∧
      ∃ fields, (JsonVal.object [(codePoints "result".toList, .str (codePoints "ok".toList))] :
        JsonVal Unit) = .object fields :=
  have h : parseResponse (fun _ => ()) (encodeUtf8 "\x7b\x22result\x22: \x22ok\x22\x7d".toList) =
      some (.object [(codePoints "result".toList, .str (codePoints "ok".toList))]) := rfl
  ⟨h, parseResponse_object (fun _ => ()) h⟩

/-- An ASCII character whose byte is not in the answer is not in its decoded text: every
character decoded comes from its own bytes. -/
theorem not_mem_decodeUtf8Ignore {a : Char} (ha : a.toNat < 128) {bs : List UInt8}
    (h : a.val.toUInt8 ∉ bs) : a ∉ decodeUtf8Ignore bs := fun hm =>
  h ((encodeUtf8_decodeUtf8Ignore_sublist bs).subset
    (List.mem_flatMap.mpr ⟨a, hm, by
      rw [utf8EncodeChar_ascii ha]; exact List.mem_singleton_self _⟩))

/-- **An answer without a `{` byte is unhealthy**, whatever else it holds: `parse_response`
finds no JSON in it. RTPEngine's own answers, bencode dictionaries such as
`cookie d6:result4:ponge`, are of that kind. -/
theorem testHealth_of_not_mem {response : List UInt8} (h : (0x7B : UInt8) ∉ response) :
    testHealth parseFloat (some response) = (false, none) := by
  have hfind := find_eq_none (not_mem_decodeUtf8Ignore (a := '\x7b') (by decide)
    (fun hm => h (List.mem_of_mem_take hm) : (0x7B : UInt8) ∉ recvfrom 4096 response))
  simp only [testHealth, parseResponse, hfind]

/-- RTPEngine's answer to a ping, `test d6:result4:ponge`, is judged unhealthy. -/
theorem testHealth_pong :
    (0x7B : UInt8) ∉ encodeUtf8 "test d6:result4:ponge".toList ∧
      testHealth (fun _ => ()) (some (encodeUtf8 "test d6:result4:ponge".toList)) =
        (false, none) :=
  ⟨by decide, testHealth_of_not_mem _ (by decide)⟩

/-- The text `json.dumps` writes for a `dict` is `{`, its items, and `}`. -/
theorem dumpsVal_object (floatstr : F → List Char) (itemSep keySep : List Char)
    (fields : List (List CodePoint × JsonVal F)) :
    ∃ X, dumpsVal floatstr itemSep keySep (.object fields) = '\x7b' :: X ++ ['\x7d'] := by
  rcases fields with _ | ⟨⟨k, v⟩, fs⟩
  · exact ⟨[], rfl⟩
  · exact ⟨encodeBasestringAscii k ++ keySep ++ dumpsVal floatstr itemSep keySep v ++
      dumpsFields floatstr itemSep keySep fs, by simp [dumpsVal]⟩

end Health

/-! ### `send_and_check_response` -/

/-- `c.lower()`: an ASCII character by `Char.toLower`; past ASCII, Unicode's full lower-case
mapping, a parameter (it may give more than one character, as `'İ'.lower()` does). -/
def lowerChar (lowerRest : Char → List Char) (c : Char) : List Char :=
  if c.toNat < 128 then [c.toLower] else lowerRest c

/-- `s.lower()`. -/
def strLower (lowerRest : Char → List Char) (s : List Char) : List Char :=
  s.flatMap (lowerChar lowerRest)

/-- `sub in s` for two `str`s. -/
def strContains (sub : List Char) : List Char → Bool
  | [] => sub.isEmpty
  | c :: s => sub.isPrefixOf (c :: s) || strContains sub s

/-- The dict `send_and_check_response` returns. -/
structure CheckResponse where
  success : Bool
  response : Option (List Char)
  timeout : Bool
  error : Option String
  deriving DecidableEq, Repr

/-- `send_and_check_response(host, port, payload)` (`test-rtpengine-patterns.py`) from the
datagram RTPEngine sends, `none` for a timeout, of which `sock.recvfrom(1024)` keeps the first
1024 bytes: a success when the decoded answer, lower-cased, holds `ok`, `pong` or `result`. -/
def sendAndCheckResponse (lowerRest : Char → List Char) (received : Option (List UInt8)) :
    CheckResponse :=
  match received with
  | none => ⟨false, none, true, none⟩
  | some datagram =>
    let responseStr := decodeUtf8Ignore (recvfrom 1024 datagram)
    if ["ok", "pong", "result"].any fun indicator =>
        strContains indicator.toList (strLower lowerRest responseStr) then
      ⟨true, some responseStr, false, none⟩
    else ⟨false, some responseStr, false, some "Unexpected response format"⟩

theorem strContains_append_left (sub t : List Char) : strContains sub (sub ++ t) = true := by
  cases h : sub ++ t with
  | nil =>
    obtain ⟨rfl, rfl⟩ := List.append_eq_nil.mp h
    rfl
  | cons c s =>
    rw [strContains, ← h, List.isPrefixOf_iff_prefix.mpr (List.prefix_append _ _), Bool.true_or]

theorem strContains_append_right {sub t : List Char} (h : strContains sub t = true)
    (s : List Char) : strContains sub (s ++ t) = true := by
  induction s with
  | nil => exact h
  | cons c s ih => rw [List.cons_append, strContains, ih, Bool.or_true]

theorem strContains_append_of_left {sub a : List Char} (h : strContains sub a = true)
    (b : List Char) : strContains sub (a ++ b) = true := by
  induction a with
  | nil =>
    simp only [strContains, List.isEmpty_iff] at h
    subst h
    cases b <;> rfl
  | cons c a ih =>
    rw [strContains, Bool.or_eq_true] at h
    rw [List.cons_append, strContains, Bool.or_eq_true]
    rcases h with h | h
    · exact .inl (List.isPrefixOf_iff_prefix.mpr
        ((List.isPrefixOf_iff_prefix.mp h).trans (List.prefix_append _ _)))
    · exact .inr (ih h)

theorem strContains_eq_false_iff (sub : List Char) :
    ∀ s, strContains sub s = false ↔ ¬ sub <:+: s
  | [] => by cases sub <;> simp [strContains]
  | c :: s => by
    simp only [strContains, Bool.or_eq_false_iff, strContains_eq_false_iff sub s,
      List.infix_cons_iff, not_or, ← List.isPrefixOf_iff_prefix, Bool.not_eq_true]

/-- `sub in s` holds exactly when `sub` stands in `s`. -/
theorem strContains_iff_isInfix (sub s : List Char) : strContains sub s = true ↔ sub <:+: s := by
  rw [← not_iff_not, Bool.not_eq_true, strContains_eq_false_iff]

theorem strContains_of_isInfix {sub a b : List Char} (h : strContains sub a = true)
    (hab : a <:+: b) : strContains sub b = true :=
  (strContains_iff_isInfix _ _).mpr (((strContains_iff_isInfix _ _).mp h).trans hab)

theorem strLower_isInfix (lowerRest : Char → List Char) {a b : List Char} (h : a <:+: b) :
    strLower lowerRest a <:+: strLower lowerRest b := by
  obtain ⟨s, t, rfl⟩ := h
  exact ⟨strLower lowerRest s, strLower lowerRest t, by simp only [strLower, List.flatMap_append]⟩

/-- A word of two letters occurs across a character that is not its second letter only on one
side of it. -/
theorem strContains_pair_append_cons {x y c : Char} (hc : c ≠ y) (a b : List Char) :
    strContains [x, y] (a ++ c :: b) =
      (strContains [x, y] a || strContains [x, y] (c :: b)) := by
  induction a with
  | nil => rfl
  | cons d a ih =>
    have hp : [x, y].isPrefixOf (d :: (a ++ c :: b)) = [x, y].isPrefixOf (d :: a) := by
      rcases a with _ | ⟨e, a⟩ <;> simp [List.isPrefixOf, hc.symm]
    conv_lhs => rw [List.cons_append, strContains]
    rw [hp, ih, ← Bool.or_assoc]
    rfl

/-- The answer the socket reads whole decodes to itself. -/
theorem decodeUtf8Ignore_recvfrom {bufsize : Nat} {text : List Char}
    (h : (encodeUtf8 text).length ≤ bufsize) :
    decodeUtf8Ignore (recvfrom bufsize (encodeUtf8 text)) = text := by
  rw [recvfrom_of_length_le h, decodeUtf8Ignore_encodeUtf8]

/-- RTPEngine's answer, the cookie, a space and a dictionary word, holds `result` when the
dictionary has the key `result`, wherever it stands. -/
theorem result_isInfix_ngAnswer (cookie : List Char) {N : Numerals} {s : List Char} {d : Dict}
    (hs : Derive N .value s (.dict d) []) (hresult : "result".toList ∈ d.map Prod.fst) :
    "result".toList <:+: cookie ++ ' ' :: s :=
  (hs.dict_key_isInfix hresult).trans
    ((List.suffix_cons _ _).trans (List.suffix_append _ _)).isInfix

/-- Lower-casing leaves `result` in place. -/
theorem strLower_result (lowerRest : Char → List Char) :
    strLower lowerRest "result".toList = "result".toList :=
  rfl

/-- **Every answer dictionary with a `result` is a success.** RTPEngine writes `result` in
every answer, so `send_and_check_response` counts the error answer
`cookie d6:result5:error12:error-reason...e` as a success too: every answer the socket reads
whole that is a cookie, a space and a dictionary word with the key `result`, wherever the key
stands and whatever its value. -/
theorem sendAndCheckResponse_of_result (lowerRest : Char → List Char) {N : Numerals}
    {cookie s : List Char} {d : Dict} (hs : Derive N .value s (.dict d) [])
    (hresult : "result".toList ∈ d.map Prod.fst)
    (hsize : (encodeUtf8 (cookie ++ ' ' :: s)).length ≤ 1024) :
    (sendAndCheckResponse lowerRest (some (encodeUtf8 (cookie ++ ' ' :: s)))).success = true := by
  have hin := strLower_isInfix lowerRest (result_isInfix_ngAnswer cookie hs hresult)
  rw [strLower_result, ← strContains_iff_isInfix, ← decodeUtf8Ignore_recvfrom hsize] at hin
  simp only [sendAndCheckResponse, List.any_cons, hin, Bool.true_or, Bool.or_true, if_true]

/-- RTPEngine's error answer to the cookie `test` is a success. -/
theorem sendAndCheckResponse_error_answer :
    Derive (Numerals.python UnicodeDb.latin1) .value
        (benDict [("result".toList, "error".toList)])
        (.dict (Dict.update [] ([("result".toList, "error".toList)].map strField))) [] ∧
      "result".toList ∈
        (Dict.update [] ([("result".toList, "error".toList)].map strField)).map Prod.fst ∧
      (encodeUtf8 ("test".toList ++ ' ' :: benDict [("result".toList, "error".toList)])).length ≤
        1024 ∧
      (sendAndCheckResponse (fun _ => []) (some (encodeUtf8
        ("test".toList ++ ' ' :: benDict [("result".toList, "error".toList)])))).success = true :=
  ⟨derive_benDict _, by decide, by decide,
    sendAndCheckResponse_of_result _ (derive_benDict (u := UnicodeDb.latin1) _) (by decide)
      (by decide)⟩

/-! ### `test_rtpengine_format` -/

/-- `test_rtpengine_format(host, port, format_name, payload)` (`test-rtpengine-bencode.py`)
from the datagram RTPEngine sends, `none` for a timeout, of which `sock.recvfrom(1024)` keeps
the first 1024 bytes: a success when the decoded answer holds `result`, and then `ok`. -/
def testRtpengineFormat (received : Option (List UInt8)) : Bool :=
  match received with
  | none => false
  | some datagram =>
    let responseStr := decodeUtf8Ignore (recvfrom 1024 datagram)
    if strContains "result".toList responseStr then strContains "ok".toList responseStr
    else false

/-- **`test_rtpengine_format` judges RTPEngine's answers by the cookie they echo.** When the
cookie holds `ok`, every answer the socket reads whole that is the cookie, a space and a
dictionary word with the key `result` passes, wherever the key stands and whatever its value,
the error answer included; the answer to a ping, `cookie d6:result4:ponge`, fails whenever the
cookie does not hold `ok`. -/
theorem testRtpengineFormat_ngAnswer (cookie : List Char) :
    (strContains "ok".toList cookie = true → ∀ (N : Numerals) (s : List Char) (d : Dict),
      Derive N .value s (.dict d) [] → "result".toList ∈ d.map Prod.fst →
      (encodeUtf8 (cookie ++ ' ' :: s)).length ≤ 1024 →
      testRtpengineFormat (some (encodeUtf8 (cookie ++ ' ' :: s))) = true) ∧
    (strContains "ok".toList cookie = false →
      (encodeUtf8 (cookie ++ ' ' :: benDict [("result".toList, "pong".toList)])).length ≤ 1024 →
      testRtpengineFormat (some (encodeUtf8
        (cookie ++ ' ' :: benDict [("result".toList, "pong".toList)]))) = false) := by
  refine ⟨fun h N s d hs hresult hsize => ?_, fun h hsize => ?_⟩
  · have hres := (strContains_iff_isInfix _ _).mpr
      (result_isInfix_ngAnswer cookie hs hresult)
    simp only [testRtpengineFormat, decodeUtf8Ignore_recvfrom hsize, hres, if_true]
    exact strContains_append_of_left h _
  · have hres := (strContains_iff_isInfix _ _).mpr (result_isInfix_ngAnswer cookie
      (derive_benDict (u := UnicodeDb.latin1) [("result".toList, "pong".toList)]) (by decide))
    simp only [testRtpengineFormat, decodeUtf8Ignore_recvfrom hsize, hres, if_true]
    rw [show "ok".toList = ['o', 'k'] from rfl] at h ⊢
    rw [strContains_pair_append_cons (by decide), h]
    decide

/-- The error answer to the cookie `token` passes, and the ping answer to the cookie `test`
fails. -/
theorem testRtpengineFormat_token_test :
    strContains "ok".toList "token".toList = true ∧
      testRtpengineFormat (some (encodeUtf8
        ("token".toList ++ ' ' :: benDict [("result".toList, "error".toList)]))) = true ∧
      strContains "ok".toList "test".toList = false ∧
      testRtpengineFormat (some (encodeUtf8
        ("test".toList ++ ' ' :: benDict [("result".toList, "pong".toList)]))) = false :=
  ⟨by decide, (testRtpengineFormat_ngAnswer _).1 (by decide) _ _ _
      (derive_benDict (u := UnicodeDb.latin1) _) (by decide) (by decide), by decide,
    (testRtpengineFormat_ngAnswer _).2 (by decide) (by decide)⟩

end NgBencode
