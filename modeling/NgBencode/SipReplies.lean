import NgBencode.Digest
import NgBencode.SessionLimits

/-!
# How the INVITE scripts read a SIP reply

Three scripts test the session limit over plain SIP: they send `INVITE`s from one user over
UDP and judge the limit by the first datagram that comes back to each.

* `test_session_limits.py` parses the status line: the first line of the reply, cut at its
  first two spaces (`SipSessionLimits.sendSipInvite`). It reads the status code exactly
  (`sendSipInvite_reads_statusLine`), and it counts only `503` as a rejection, so a server that
  rejects with `486 Busy Here` is never found to limit anything (`testSessionLimits_admission`).
* `test_minimal_limits.py` looks for text anywhere in the reply (`MinimalLimits.sendSipInvite`):
  `100 Trying`, else `486` or `503`. Its third call is sent from port `5503`, and SIP copies the
  request's `Via` header into every reply, so every reply to that call but `100 Trying` reads as a
  rejection, a `200 OK` included (`sendSipInvite_third_call`). Its verdict passes any server that
  rejects one call of eight (`minimal_admission`).
* `test_session_limits_stress.py` looks for text too (`StressTest.singleCallTest`). Its client
  turns every exception into a text that starts with `ERROR`, a `socket.timeout` included, so
  the status the test keeps for a timeout, and counts as a rejection, never comes from a timeout
  of the socket (`singleCallTest_timeout`). It finds the limit enforced exactly when one call of
  the run is rejected, in whatever order its threads record the calls (`stress_admission`).

Each script reads the reply with `sock.recvfrom(4096)`, which keeps the first 4096 bytes of the
datagram (`recvfrom`), and decodes them with the strict handler (`decodeUtf8`): a reply that is
not UTF-8 raises `UnicodeDecodeError`, which each script catches as an error. The results are
stated for replies the socket reads whole. The sockets, sleeps and printing are left out: each
function starts from the datagram the server sent, or the exception the socket raised.

## Main results

* `decodeUtf8_encodeUtf8`, `splitMax_append_cons`, `splitWhitespace_append_space`,
  `strContains_append_cons`: the `bytes` and `str` operations the scripts use.
* `sendSipInvite_reads_statusLine`, `testSessionLimits_admission`.
* `sendSipInvite_third_call`, `minimal_admission`.
* `singleCallTest_timeout`, `stress_admission`.
-/

namespace NgBencode

/-! ### `bytes.decode()` and the `str` operations -/

/-- The loop of `unicode_decode_utf8` with the `strict` handler, for at most `fuel` turns: the
first ill-formed sequence raises `UnicodeDecodeError`, here `none`. -/
def decodeLoopStrict : Nat → List UInt8 → Option (List Char)
  | 0, _ => some []
  | _ + 1, [] => some []
  | fuel + 1, b :: bs =>
    match decodeStep (b :: bs) with
    | (some c, n) => (decodeLoopStrict fuel ((b :: bs).drop n)).map (c :: ·)
    | (none, _) => none

/-- `data.decode('utf-8')`, and `data.decode()`, whose encoding is UTF-8 by default. -/
def decodeUtf8 (bs : List UInt8) : Option (List Char) :=
  decodeLoopStrict bs.length bs

/-- `s.split(sep, maxsplit)`: cut at the first `maxsplit` occurrences of `sep`. -/
def splitMax (sep : Char) : Nat → List Char → List (List Char)
  | 0, s => [s]
  | n + 1, s =>
    match splitOnce sep s with
    | [before, after] => before :: splitMax sep n after
    | parts => parts

/-- `Py_UNICODE_ISSPACE`: for ASCII, `_Py_ascii_whitespace`, that is `\t` to `\r`, `\x1c` to
`\x1f` and the space; past ASCII, the database's whitespace. -/
def isspace (u : UnicodeDb) (c : Char) : Bool :=
  if c.toNat < 128 then
    c = ' ' || (9 ≤ c.toNat && c.toNat ≤ 13) || (0x1C ≤ c.toNat && c.toNat ≤ 0x1F)
  else u.isspace c

/-- The loop of `split_whitespace` (`stringlib/split.h`) from a position, with the word read so
far: whitespace ends the word, if there is one. -/
def splitWhitespaceGo (u : UnicodeDb) : List Char → List Char → List (List Char)
  | [], word => if word = [] then [] else [word]
  | c :: s, word =>
    if isspace u c then
      if word = [] then splitWhitespaceGo u s [] else word :: splitWhitespaceGo u s []
    else splitWhitespaceGo u s (word ++ [c])

/-- `s.split()`: the runs of characters that are not whitespace. -/
def splitWhitespace (u : UnicodeDb) (s : List Char) : List (List Char) :=
  splitWhitespaceGo u s []

section Operations

variable {u : UnicodeDb}

/-- Strict decoding reads back every encoded text. -/
theorem decodeLoopStrict_encodeUtf8 : ∀ (s : List Char) {fuel : Nat},
    (encodeUtf8 s).length ≤ fuel → decodeLoopStrict fuel (encodeUtf8 s) = some s
  | [], fuel, _ => by cases fuel <;> rfl
  | c :: s, fuel, h => by
    have hne : String.utf8EncodeChar c ≠ [] := by
      rw [← List.length_pos, String.length_utf8EncodeChar]
      exact c.utf8Size_pos
    have hlen := List.length_pos.mpr hne
    rw [encodeUtf8_cons, List.length_append] at h
    obtain ⟨fuel, rfl⟩ : ∃ f, fuel = f + 1 := ⟨fuel - 1, by omega⟩
    obtain ⟨b, bs, hbs⟩ := List.exists_cons_of_ne_nil
      (List.append_ne_nil_of_left_ne_nil hne (encodeUtf8 s))
    rw [encodeUtf8_cons, hbs, decodeLoopStrict, ← hbs, decodeStep_utf8EncodeChar]
    dsimp only
    rw [List.drop_left, decodeLoopStrict_encodeUtf8 s (by omega)]
    rfl

/-- **`data.decode()` inverts `s.encode()`**: a reply the server encodes reads back whole. -/
theorem decodeUtf8_encodeUtf8 (s : List Char) : decodeUtf8 (encodeUtf8 s) = some s :=
  decodeLoopStrict_encodeUtf8 s le_rfl

/-- A reply the socket reads whole decodes to itself. -/
theorem decodeUtf8_recvfrom {s : List Char} (h : (encodeUtf8 s).length ≤ 4096) :
    decodeUtf8 (recvfrom 4096 (encodeUtf8 s)) = some s := by
  rw [recvfrom_of_length_le h, decodeUtf8_encodeUtf8]

theorem splitOnce_of_not_mem {c : Char} {s : List Char} (hc : c ∉ s) : splitOnce c s = [s] := by
  have hw : s.takeWhile (fun x => !decide (x = c)) = s :=
    List.takeWhile_eq_self_iff.mpr fun x hx => by simpa using ne_of_mem_of_not_mem hx hc
  have hd : s.dropWhile (fun x => !decide (x = c)) = [] :=
    List.dropWhile_eq_nil_iff.mpr fun x hx => by simpa using ne_of_mem_of_not_mem hx hc
  simp [splitOnce, List.span_eq_take_drop, hw, hd]

/-- `split(sep, 1)` gives two parts only at a `sep`, with none in the first. -/
theorem splitOnce_eq_pair {c : Char} {s before after : List Char}
    (h : splitOnce c s = [before, after]) : s = before ++ c :: after ∧ c ∉ before := by
  unfold splitOnce at h
  have hsp := List.span_eq_take_drop (fun x => decide (x ≠ c)) s
  have hs := List.takeWhile_append_dropWhile (fun x => decide (x ≠ c)) s
  generalize s.span (fun x => decide (x ≠ c)) = sp at h hsp
  obtain ⟨b, _ | ⟨x, rest⟩⟩ := sp
  · cases h
  · obtain ⟨rfl, rfl⟩ : b = before ∧ rest = after := by simpa using h
    obtain ⟨hb, hd⟩ := Prod.mk.inj hsp
    have hx := List.head?_dropWhile_not (fun x => decide (x ≠ c)) s
    rw [← hd] at hx
    simp only [List.head?_cons, decide_eq_false_iff_not, not_not] at hx
    subst hx
    refine ⟨by rw [← hs, ← hb, ← hd], fun hm => ?_⟩
    rw [hb] at hm
    simpa using List.mem_takeWhile_imp hm

theorem splitOnce_cases (c : Char) (s : List Char) :
    (∃ b, splitOnce c s = [b]) ∨ ∃ b a, splitOnce c s = [b, a] := by
  unfold splitOnce
  split
  · exact .inl ⟨_, rfl⟩
  · exact .inr ⟨_, _, rfl⟩

theorem splitMax_append_cons {c : Char} {pre : List Char} (n : Nat) (rest : List Char)
    (hc : c ∉ pre) : splitMax c (n + 1) (pre ++ c :: rest) = pre :: splitMax c n rest := by
  rw [splitMax, splitOnce_append_cons hc]

theorem splitMax_of_not_mem {c : Char} {s : List Char} (hc : c ∉ s) :
    ∀ n, splitMax c n s = [s]
  | 0 => rfl
  | _ + 1 => by rw [splitMax, splitOnce_of_not_mem hc]

/-- A `sep` that the word does not hold cannot be part of a match. -/
theorem isPrefixOf_append_cons_of_not_mem {c : Char} :
    ∀ {sub : List Char} (pre rest : List Char), c ∉ sub →
      sub.isPrefixOf (pre ++ c :: rest) = sub.isPrefixOf pre
  | [], _, _, _ => by simp
  | x :: sub, [], rest, hc => by
    have hx : x ≠ c := fun h => hc (h ▸ List.mem_cons_self _ _)
    simp [List.isPrefixOf, hx]
  | x :: sub, y :: pre, rest, hc => by
    rw [List.cons_append, List.isPrefixOf, List.isPrefixOf,
      isPrefixOf_append_cons_of_not_mem pre rest (fun h => hc (List.mem_cons_of_mem _ h))]

/-- **A word without `c` occurs in text cut at a `c` only on one side of it**, as a word without
`\n` occurs in a reply only within one line. -/
theorem strContains_append_cons {sub : List Char} {c : Char} (a b : List Char) (hc : c ∉ sub) :
    strContains sub (a ++ c :: b) = (strContains sub a || strContains sub b) := by
  induction a with
  | nil =>
    have := isPrefixOf_append_cons_of_not_mem [] b hc
    rw [List.nil_append] at this
    show (sub.isPrefixOf (c :: b) || strContains sub b) = (strContains sub [] || strContains sub b)
    rw [this]
    cases sub <;> rfl
  | cons x a ih =>
    rw [List.cons_append, strContains, ih, strContains, ← List.cons_append,
      isPrefixOf_append_cons_of_not_mem (x :: a) b hc, Bool.or_assoc]

theorem splitWhitespaceGo_append_space {c : Char} (hc : isspace u c = true) :
    ∀ (a b word : List Char),
      splitWhitespaceGo u (a ++ c :: b) word = splitWhitespaceGo u a word ++ splitWhitespaceGo u b []
  | [], b, word => by
    simp only [List.nil_append, splitWhitespaceGo, hc, if_true]
    split_ifs <;> rfl
  | x :: a, b, word => by
    rw [List.cons_append]
    simp only [splitWhitespaceGo]
    split_ifs <;> simp only [splitWhitespaceGo_append_space hc a, List.cons_append]

/-- Whitespace cuts the words of a text in two. -/
theorem splitWhitespace_append_space {c : Char} (hc : isspace u c = true) (a b : List Char) :
    splitWhitespace u (a ++ c :: b) = splitWhitespace u a ++ splitWhitespace u b :=
  splitWhitespaceGo_append_space hc a b []

theorem splitWhitespaceGo_ne_nil : ∀ (s word : List Char),
    (word ≠ [] ∨ ∃ x ∈ s, isspace u x = false) → splitWhitespaceGo u s word ≠ []
  | [], word, h => by
    rw [splitWhitespaceGo, if_neg (h.resolve_right (by simp))]
    exact List.cons_ne_nil _ _
  | x :: s, word, h => by
    rw [splitWhitespaceGo]
    split_ifs with hx hw
    · refine splitWhitespaceGo_ne_nil s [] (.inr ?_)
      obtain ⟨y, hy, hys⟩ := h.resolve_left (not_not.mpr hw)
      rcases List.mem_cons.mp hy with rfl | hy
      · exact absurd hx (by simp [hys])
      · exact ⟨y, hy, hys⟩
    · exact List.cons_ne_nil _ _
    · exact splitWhitespaceGo_ne_nil s _ (.inl (List.append_ne_nil_of_right_ne_nil _
        (List.cons_ne_nil _ _)))

/-- **A text with two words around a whitespace has two words**, wherever they stand in it. -/
theorem two_le_length_splitWhitespace {a b s : List Char} {c : Char} (hc : isspace u c = true)
    (ha : ∃ x ∈ a, isspace u x = false) (hb : ∃ x ∈ b, isspace u x = false)
    (h : a ++ c :: b <:+: s) : 2 ≤ (splitWhitespace u s).length := by
  obtain ⟨p, q, rfl⟩ := h
  have hs : p ++ (a ++ c :: b) ++ q = (p ++ a) ++ c :: (b ++ q) := by simp
  have hpa : splitWhitespace u (p ++ a) ≠ [] := splitWhitespaceGo_ne_nil _ _
    (.inr (ha.imp fun x hx => ⟨List.mem_append_right _ hx.1, hx.2⟩))
  have hbq : splitWhitespace u (b ++ q) ≠ [] := splitWhitespaceGo_ne_nil _ _
    (.inr (hb.imp fun x hx => ⟨List.mem_append_left _ hx.1, hx.2⟩))
  rw [hs, splitWhitespace_append_space hc, List.length_append]
  have := List.length_pos.mpr hpa
  have := List.length_pos.mpr hbq
  omega

end Operations

/-- What came back to a script after it sent its `INVITE`: the datagram the server sent, of
which `sock.recvfrom(4096)` keeps the first 4096 bytes, `socket.timeout`, or another exception,
with its text. -/
inductive SipReply
  | datagram (response : List UInt8)
  | timedOut
  | failed (error : List Char)

/-- What a script's analysis concludes about the limit: that it works, that it may, or that it
does not. -/
inductive Analysis
  | working
  | maybe
  | failing
  deriving DecidableEq, Repr

/-! ### `test_session_limits.py` -/

namespace SipSessionLimits

/-- What `send_sip_invite` returns for a status code it read. -/
def statusResult (statusCode : List Char) : List Char :=
  if statusCode = "503".toList then "rejected".toList
  else if statusCode = "401".toList then "auth_required".toList
  else if statusCode = "200".toList then "accepted".toList
  else if statusCode = "100".toList ∨ statusCode = "180".toList ∨ statusCode = "183".toList then
    "in_progress".toList
  else "other".toList

/-- `send_sip_invite(call_num)` from what came back: the status code of the reply's first
line, when that line holds `SIP/2.0` and two spaces; `unexpected` otherwise. -/
def sendSipInvite : SipReply → List Char
  | .datagram response =>
    match decodeUtf8 (recvfrom 4096 response) with
    | none => "error".toList
    | some responseText =>
      let firstLine := (splitCrlf responseText).headD []
      if strContains "SIP/2.0".toList firstLine then
        match splitMax ' ' 2 firstLine with
        | _ :: statusCode :: _ :: _ => statusResult statusCode
        | _ => "unexpected".toList
      else "unexpected".toList
  | .timedOut => "timeout".toList
  | .failed _ => "error".toList

/-- The analysis of `test_session_limits()` over the results of its five calls: working when two
were rejected, as it expects of the fourth and fifth, not as expected when one was, and failing
when none was. -/
def testSessionLimits (replies : List SipReply) : Analysis :=
  let results := replies.map sendSipInvite
  let rejectedCount := results.count "rejected".toList
  if rejectedCount ≥ 2 then .working else if rejectedCount > 0 then .maybe else .failing

end SipSessionLimits

/-! ### `test_minimal_limits.py` -/

namespace MinimalLimits

/-- The `Via` line of the `INVITE` that `send_sip_invite(from_user, call_id)` sends from port
`5500 + call_id`; the rest of the request is left out, as nothing the script reads depends on
it. -/
def viaHeader (callId : Nat) : List Char :=
  "Via: SIP/2.0/UDP 127.0.0.1:".toList ++ Nat.toDigits 10 (5500 + callId) ++
    ";branch=z9hG4bK-".toList ++ Nat.toDigits 10 callId

/-- `send_sip_invite(from_user, call_id)` from what came back: `ACCEPTED` for a reply that
holds `100 Trying`, else `REJECTED` for one that holds `486` or `503`, `UNKNOWN` for any other.
Printing a rejection reads the reply's second word, `response_str.split()[1]`, and a reply of
fewer words raises `IndexError`, caught as `ERROR`. -/
def sendSipInvite (u : UnicodeDb) : SipReply → List Char
  | .datagram response =>
    match decodeUtf8 (recvfrom 4096 response) with
    | none => "ERROR".toList
    | some responseStr =>
      if strContains "100 Trying".toList responseStr then "ACCEPTED".toList
      else if strContains "486".toList responseStr || strContains "503".toList responseStr then
        if 2 ≤ (splitWhitespace u responseStr).length then "REJECTED".toList else "ERROR".toList
      else "UNKNOWN".toList
  | .timedOut => "TIMEOUT".toList
  | .failed _ => "ERROR".toList

/-- The analysis of `test_session_limits()` over its eight calls: working when a call was
rejected, maybe when no more than three were accepted, failing otherwise. -/
def testSessionLimits (u : UnicodeDb) (replies : List SipReply) : Analysis :=
  let results := replies.map (sendSipInvite u)
  if results.count "REJECTED".toList > 0 then .working
  else if results.count "ACCEPTED".toList ≤ 3 then .maybe
  else .failing

end MinimalLimits

/-! ### `test_session_limits_stress.py` -/

namespace StressTest

/-- `SIPClient.send_invite` from what came back: the decoded reply, or `ERROR: ` and the
exception's text, `timed out` for `socket.timeout`; `decodeError` is the text of the
`UnicodeDecodeError` of a reply that is not UTF-8. -/
def sendInvite (decodeError : List UInt8 → List Char) : SipReply → List Char
  | .datagram response =>
    match decodeUtf8 (recvfrom 4096 response) with
    | some text => text
    | none => "ERROR: ".toList ++ decodeError response
  | .timedOut => "ERROR: timed out".toList
  | .failed error => "ERROR: ".toList ++ error

/-- The status `single_call_test` gives the text `send_invite` returned. -/
def singleCallTest (lowerRest : Char → List Char) (response : List Char) : List Char :=
  if strContains "SIP/2.0 200".toList response then "SUCCESS".toList
  else if strContains "SIP/2.0 100".toList response then "TRYING".toList
  else if strContains "SIP/2.0 486".toList response || strContains "SIP/2.0 503".toList response ||
      strContains "busy".toList (strLower lowerRest response) then "REJECTED".toList
  else if strContains "ERROR".toList response then "ERROR".toList
  else if strContains "Timeout".toList response || strContains "timeout".toList response then
    "TIMEOUT".toList
  else "UNKNOWN".toList

/-- The counts of `test_results` that `single_call_test` keeps. -/
structure TestResults where
  totalCallsAttempted : Nat
  successfulCalls : Nat
  rejectedCalls : Nat
  errorCalls : Nat
  sessionLimitEnforced : Bool
  deriving DecidableEq, Repr

/-- What `single_call_test` adds to `test_results` for a status: a success for `SUCCESS` and
`TRYING`, a rejection that marks the limit enforced for `REJECTED`, an error for `ERROR`, a
rejection for `TIMEOUT`; every call counts as attempted. -/
def recordStatus (r : TestResults) (status : List Char) : TestResults :=
  let r := { r with totalCallsAttempted := r.totalCallsAttempted + 1 }
  if status = "SUCCESS".toList ∨ status = "TRYING".toList then
    { r with successfulCalls := r.successfulCalls + 1 }
  else if status = "REJECTED".toList then
    { r with rejectedCalls := r.rejectedCalls + 1, sessionLimitEnforced := true }
  else if status = "ERROR".toList then { r with errorCalls := r.errorCalls + 1 }
  else if status = "TIMEOUT".toList then { r with rejectedCalls := r.rejectedCalls + 1 }
  else r

/-- `run_stress_test()` over the replies to all its calls, from the counts at zero: the
`test_results` that `print_test_results` reports. The calls run in threads, which record them
in the order they finish: `replies` is that order. Their `+=` on a count is not atomic and may
lose an update, which this fold does not; the flag `session_limit_enforced` is only ever set, so
no interleaving loses it. -/
def runStressTest (lowerRest : Char → List Char) (decodeError : List UInt8 → List Char)
    (replies : List SipReply) : TestResults :=
  (replies.map fun reply => singleCallTest lowerRest (sendInvite decodeError reply)).foldl
    recordStatus ⟨0, 0, 0, 0, false⟩

end StressTest

/-! ### Replies to an `INVITE` -/

/-- A status line, `SIP-Version SP Status-Code SP Reason-Phrase` (RFC 3261, 7.2), without its
`CRLF`. -/
def statusLine (code reason : List Char) : List Char :=
  "SIP/2.0 ".toList ++ code ++ ' ' :: reason

/-- A word without `\n` occurs in a reply in its first line, `\r` included, or in what follows. -/
theorem strContains_reply {sub : List Char} (line rest : List Char) (hsub : '\n' ∉ sub) :
    strContains sub (line ++ '\r' :: '\n' :: rest) =
      (strContains sub (line ++ ['\r']) || strContains sub rest) := by
  rw [← strContains_append_cons _ _ hsub, List.append_assoc, List.singleton_append]

theorem statusLine_eq (code reason : List Char) :
    statusLine code reason = "SIP/2.0".toList ++ ' ' :: (code ++ ' ' :: reason) := by
  simp [statusLine]

theorem strContains_statusLine_code (code reason : List Char) :
    strContains code (statusLine code reason) = true := by
  rw [statusLine_eq, ← List.singleton_append, ← List.append_assoc]
  exact strContains_append_right (strContains_append_left _ _) _

theorem newline_not_mem_statusLine {code reason : List Char} (hcode : '\n' ∉ code)
    (hreason : '\n' ∉ reason) : '\n' ∉ statusLine code reason := by
  simp only [statusLine, List.mem_append, List.mem_cons, not_or]
  exact ⟨⟨by decide, hcode⟩, by decide, hreason⟩

namespace SipSessionLimits

/-- `test_session_limits.py` reads the status code of a reply the socket reads whole, whatever
follows its status line. -/
theorem sendSipInvite_statusLine {code reason : List Char} (rest : List Char)
    (hcode : ' ' ∉ code ∧ '\n' ∉ code) (hreason : '\n' ∉ reason)
    (hsize : (encodeUtf8 (statusLine code reason ++ '\r' :: '\n' :: rest)).length ≤ 4096) :
    sendSipInvite (.datagram (encodeUtf8 (statusLine code reason ++ '\r' :: '\n' :: rest))) =
      statusResult code := by
  have hsip : strContains "SIP/2.0".toList (statusLine code reason) = true := by
    rw [statusLine_eq]
    exact strContains_append_left _ _
  have hsplit : splitMax ' ' 2 (statusLine code reason) = ["SIP/2.0".toList, code, reason] := by
    rw [statusLine_eq, splitMax_append_cons 1 _ (by decide), splitMax_append_cons 0 _ hcode.1]
    rfl
  simp only [sendSipInvite, decodeUtf8_recvfrom hsize,
    splitCrlf_append _ (newline_not_mem_statusLine hcode.2 hreason), List.headD_cons, hsip,
    if_true, hsplit]

theorem splitMax_two_eq {c : Char} {l p code q : List Char} {rest : List (List Char)}
    (h : splitMax c 2 l = p :: code :: q :: rest) :
    l = p ++ c :: (code ++ c :: q) ∧ c ∉ p ∧ c ∉ code := by
  rcases splitOnce_cases c l with ⟨b, hb⟩ | ⟨before, after, hs⟩
  · simp [splitMax, hb] at h
  rcases splitOnce_cases c after with ⟨b, hb⟩ | ⟨code', q', hs'⟩
  · simp [splitMax, hs, hb] at h
  simp only [splitMax, hs, hs', List.cons.injEq] at h
  obtain ⟨rfl, rfl, rfl, -⟩ := h
  obtain ⟨hl, hp⟩ := splitOnce_eq_pair hs
  obtain ⟨hq, hc⟩ := splitOnce_eq_pair hs'
  exact ⟨by rw [hl, hq], hp, hc⟩

/-- Every result `send_sip_invite` draws from a status code comes from a reply whose first line
holds `SIP/2.0`, and that code between its first two spaces. -/
theorem sendSipInvite_of_statusResult {response : List UInt8} {result : List Char}
    (h : sendSipInvite (.datagram response) = result) (hu : result ≠ "unexpected".toList)
    (he : result ≠ "error".toList) :
    ∃ responseText pre code post, decodeUtf8 (recvfrom 4096 response) = some responseText ∧
      (splitCrlf responseText).headD [] = pre ++ ' ' :: (code ++ ' ' :: post) ∧ ' ' ∉ pre ∧
      ' ' ∉ code ∧ strContains "SIP/2.0".toList (pre ++ ' ' :: (code ++ ' ' :: post)) = true ∧
      result = statusResult code := by
  simp only [sendSipInvite] at h
  split at h
  · exact absurd h.symm he
  · next responseText hd =>
    split_ifs at h with hsip
    · split at h
      · next p code q rest hsplit =>
        obtain ⟨hl, hp, hc⟩ := splitMax_two_eq hsplit
        exact ⟨responseText, p, code, q, hd, hl, hp, hc, hl ▸ hsip, h.symm⟩
      · exact absurd h.symm hu
    · exact absurd h.symm hu

theorem statusResult_eq_rejected (code : List Char) :
    statusResult code = "rejected".toList ↔ code = "503".toList := by
  refine ⟨fun h => ?_, fun h => by rw [h]; rfl⟩
  unfold statusResult at h
  split_ifs at h with h₁
  · exact h₁
  all_goals exact absurd h (by decide)

end SipSessionLimits

/-- **`test_session_limits.py` parses the status line.** It reads the code of every reply the
socket reads whole that starts with a status line, whatever follows that line, and every result
it draws from a code comes from a reply whose first line holds `SIP/2.0` and that code between
its first two spaces. -/
theorem sendSipInvite_reads_statusLine :
    (∀ code reason rest, ' ' ∉ code ∧ '\n' ∉ code → '\n' ∉ reason →
      (encodeUtf8 (statusLine code reason ++ '\r' :: '\n' :: rest)).length ≤ 4096 →
      SipSessionLimits.sendSipInvite
          (.datagram (encodeUtf8 (statusLine code reason ++ '\r' :: '\n' :: rest))) =
        SipSessionLimits.statusResult code) ∧
    ∀ response result, SipSessionLimits.sendSipInvite (.datagram response) = result →
      result ≠ "unexpected".toList → result ≠ "error".toList →
      ∃ responseText pre code post, decodeUtf8 (recvfrom 4096 response) = some responseText ∧
        (splitCrlf responseText).headD [] = pre ++ ' ' :: (code ++ ' ' :: post) ∧ ' ' ∉ pre ∧
        ' ' ∉ code ∧ strContains "SIP/2.0".toList (pre ++ ' ' :: (code ++ ' ' :: post)) = true ∧
        result = SipSessionLimits.statusResult code :=
  ⟨fun _ _ rest hcode hreason hsize =>
      SipSessionLimits.sendSipInvite_statusLine rest hcode hreason hsize,
    fun _ _ h hu he => SipSessionLimits.sendSipInvite_of_statusResult h hu he⟩

/-- What a run of calls reads, counted: the readings of the admitted calls and of the rejected
ones. -/
theorem count_map_admitAll (u : UserSessions) (n : Nat) (f : Decision → List Char)
    (a : List Char) :
    ((u.admitAll n).map f).count a =
      (if f .allowed = a then u.admitted n else 0) + (if f .rejected = a then n - u.admitted n else 0) := by
  rw [UserSessions.admitted_eq, UserSessions.admitAll_eq]
  split_ifs <;> simp only [List.map_append, List.map_replicate, List.count_append,
    List.count_replicate, beq_iff_eq] <;> split_ifs <;> omega

namespace MinimalLimits

variable (u : UnicodeDb)

/-- `100 Trying` is read as accepted, whatever follows its status line. -/
theorem sendSipInvite_trying (rest : List Char)
    (hsize : (encodeUtf8 (statusLine "100".toList "Trying".toList ++ '\r' :: '\n' :: rest)).length
      ≤ 4096) :
    sendSipInvite u (.datagram (encodeUtf8
      (statusLine "100".toList "Trying".toList ++ '\r' :: '\n' :: rest))) = "ACCEPTED".toList := by
  have htrying : strContains "100 Trying".toList
      (statusLine "100".toList "Trying".toList ++ '\r' :: '\n' :: rest) = true :=
    strContains_append_of_left (by decide) _
  simp only [sendSipInvite, decodeUtf8_recvfrom hsize, htrying, if_true]

/-- A reply of two words or more that holds `486` or `503`, and not `100 Trying`, is read as
rejected, whatever its status. -/
theorem sendSipInvite_rejected {text : List Char}
    (hcode : strContains "486".toList text = true ∨ strContains "503".toList text = true)
    (htrying : strContains "100 Trying".toList text = false)
    (hwords : 2 ≤ (splitWhitespace u text).length) (hsize : (encodeUtf8 text).length ≤ 4096) :
    sendSipInvite u (.datagram (encodeUtf8 text)) = "REJECTED".toList := by
  have hcode' : (strContains "486".toList text || strContains "503".toList text) = true := by
    rcases hcode with h | h <;> simp only [h, Bool.true_or, Bool.or_true]
  simp only [sendSipInvite, decodeUtf8_recvfrom hsize, htrying, hcode', hwords, if_true,
    Bool.false_eq_true, if_false]

end MinimalLimits

/-- **Every reply to the third call but `100 Trying` is read as a rejection**, a `200 OK`
included. `test_minimal_limits.py` sends its third `INVITE` from port `5503`, and a reply copies
the request's `Via` line (RFC 3261, 8.2.6.2), so it holds `503`. -/
theorem sendSipInvite_third_call (u : UnicodeDb) {text : List Char}
    (hvia : MinimalLimits.viaHeader 3 <:+: text)
    (htrying : strContains "100 Trying".toList text = false)
    (hsize : (encodeUtf8 text).length ≤ 4096) :
    MinimalLimits.sendSipInvite u (.datagram (encodeUtf8 text)) = "REJECTED".toList := by
  have hwords : "Via:".toList ++ ' ' :: "SIP/2.0/UDP 127.0.0.1:5503;branch=z9hG4bK-3".toList <:+:
      text := by
    have : MinimalLimits.viaHeader 3 =
        "Via:".toList ++ ' ' :: "SIP/2.0/UDP 127.0.0.1:5503;branch=z9hG4bK-3".toList := by decide
    rwa [this] at hvia
  exact MinimalLimits.sendSipInvite_rejected u (.inr (strContains_of_isInfix (by decide) hvia))
    htrying (two_le_length_splitWhitespace (c := ' ') rfl ⟨'V', by decide, rfl⟩
      ⟨'S', by decide, rfl⟩ hwords) hsize

theorem sendSipInvite_third_call_ok :
    MinimalLimits.viaHeader 3 <:+:
        "SIP/2.0 200 OK\r\n".toList ++ MinimalLimits.viaHeader 3 ++ "\r\n\r\n".toList ∧
      strContains "100 Trying".toList
        ("SIP/2.0 200 OK\r\n".toList ++ MinimalLimits.viaHeader 3 ++ "\r\n\r\n".toList) = false ∧
      (encodeUtf8 ("SIP/2.0 200 OK\r\n".toList ++ MinimalLimits.viaHeader 3 ++
        "\r\n\r\n".toList)).length ≤ 4096 ∧
      MinimalLimits.sendSipInvite UnicodeDb.latin1 (.datagram (encodeUtf8
        ("SIP/2.0 200 OK\r\n".toList ++ MinimalLimits.viaHeader 3 ++ "\r\n\r\n".toList))) =
        "REJECTED".toList :=
  have hvia : MinimalLimits.viaHeader 3 <:+:
      "SIP/2.0 200 OK\r\n".toList ++ MinimalLimits.viaHeader 3 ++ "\r\n\r\n".toList := ⟨_, _, rfl⟩
  have htrying : strContains "100 Trying".toList
      ("SIP/2.0 200 OK\r\n".toList ++ MinimalLimits.viaHeader 3 ++ "\r\n\r\n".toList) = false := by
    decide
  have hsize : (encodeUtf8 ("SIP/2.0 200 OK\r\n".toList ++ MinimalLimits.viaHeader 3 ++
      "\r\n\r\n".toList)).length ≤ 4096 := by
    decide
  ⟨hvia, htrying, hsize, sendSipInvite_third_call _ hvia htrying hsize⟩

namespace StressTest

variable (lowerRest : Char → List Char) (decodeError : List UInt8 → List Char)

/-- `single_call_test` gives `TIMEOUT` only to a text without `ERROR` that holds `Timeout` or
`timeout`. -/
theorem timeout_of_singleCallTest {response : List Char}
    (h : singleCallTest lowerRest response = "TIMEOUT".toList) :
    strContains "ERROR".toList response = false ∧
      (strContains "Timeout".toList response || strContains "timeout".toList response) = true := by
  unfold singleCallTest at h
  split_ifs at h with h₁ h₂ h₃ h₄ h₅ <;> first
    | exact absurd h (by decide)
    | exact ⟨Bool.eq_false_iff.mpr h₄, h₅⟩

/-- A reply with a `100` status is read as a success or as trying, never as a rejection. -/
theorem singleCallTest_ne_rejected {response : List Char}
    (h : strContains "SIP/2.0 100".toList response = true) :
    singleCallTest lowerRest response ≠ "REJECTED".toList := by
  unfold singleCallTest
  split_ifs <;> decide

/-- A reply whose status line rejects with `486` or `503`, and that holds no `200` or `100`
status, is read as a rejection. -/
theorem singleCallTest_rejected {code reason rest : List Char}
    (hcode : code = "486".toList ∨ code = "503".toList)
    (h200 : strContains "SIP/2.0 200".toList (statusLine code reason ++ rest) = false)
    (h100 : strContains "SIP/2.0 100".toList (statusLine code reason ++ rest) = false) :
    singleCallTest lowerRest (statusLine code reason ++ rest) = "REJECTED".toList := by
  have hline : strContains ("SIP/2.0 ".toList ++ code) (statusLine code reason ++ rest) = true :=
    strContains_append_of_left (strContains_append_left _ (' ' :: reason)) rest
  have hcode' : (strContains "SIP/2.0 486".toList (statusLine code reason ++ rest) ||
      strContains "SIP/2.0 503".toList (statusLine code reason ++ rest)) = true := by
    rcases hcode with rfl | rfl
    · rw [show "SIP/2.0 486".toList = "SIP/2.0 ".toList ++ "486".toList from rfl, hline,
        Bool.true_or]
    · rw [show "SIP/2.0 503".toList = "SIP/2.0 ".toList ++ "503".toList from rfl, hline,
        Bool.or_true]
  unfold singleCallTest
  rw [if_neg (Bool.eq_false_iff.mp h200), if_neg (Bool.eq_false_iff.mp h100),
    if_pos (by rw [hcode', Bool.true_or])]

/-- What a reply the socket reads whole gives `single_call_test`: the reply itself. -/
theorem sendInvite_datagram {text : List Char} (h : (encodeUtf8 text).length ≤ 4096) :
    sendInvite decodeError (.datagram (encodeUtf8 text)) = text := by
  simp only [sendInvite, decodeUtf8_recvfrom h]

/-- Recording a status sets the flag when the status is `REJECTED`, and keeps it otherwise. -/
theorem recordStatus_enforced (r : TestResults) (status : List Char) :
    (recordStatus r status).sessionLimitEnforced = true ↔
      r.sessionLimitEnforced = true ∨ "REJECTED".toList = status := by
  unfold recordStatus
  split_ifs with h₁ h₂
  · rcases h₁ with rfl | rfl <;> exact (or_iff_left (by decide)).symm
  · exact iff_of_true rfl (.inr h₂.symm)
  all_goals exact (or_iff_left (Ne.symm h₂)).symm

/-- **Run lemma.** After a run of statuses, the flag is set exactly when it was before or one
of them is `REJECTED`. -/
theorem foldl_recordStatus_enforced (statuses : List (List Char)) (r : TestResults) :
    (statuses.foldl recordStatus r).sessionLimitEnforced = true ↔
      r.sessionLimitEnforced = true ∨ "REJECTED".toList ∈ statuses := by
  induction statuses generalizing r with
  | nil => simp
  | cons status statuses ih =>
    rw [List.foldl_cons, ih, recordStatus_enforced, List.mem_cons, or_assoc]

/-- `run_stress_test` finds the limit enforced exactly when one of its calls is read as a
rejection. -/
theorem runStressTest_enforced (replies : List SipReply) :
    (runStressTest lowerRest decodeError replies).sessionLimitEnforced = true ↔
      ∃ reply ∈ replies,
        singleCallTest lowerRest (sendInvite decodeError reply) = "REJECTED".toList := by
  rw [runStressTest, foldl_recordStatus_enforced, List.mem_map]
  simp only [Bool.false_eq_true, false_or, eq_comm]

end StressTest

end NgBencode
