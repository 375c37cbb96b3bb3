import NgBencode.Sre
import NgBencode.Health

/-!
# The SIP digest challenge, as the two test clients read it

Two scripts register with the B2BUA and answer its `401 Unauthorized` challenge.
`test_full_auth.py` finds the `WWW-Authenticate` header with `re.search`, reads its `realm` and
`nonce` with the patterns of `NgBencode.Sre`, and answers with a `qop=auth` digest
(`FullAuth.testSipAuthentication`). `test_sip_client.py` splits the answer into lines, takes the
first `WWW-Authenticate:` line that holds `nonce="`, and cuts the nonce out with `str.find` and a
slice (`SipClient.sendSipRegister`); it answers with a digest without `qop`
(`SipClient.testAuthenticationFlow`). MD5 is a parameter: every result holds for each function
from bytes to a hex digest.

On the challenge a registrar writes, `Digest realm="…", nonce="…"` on a line of its own, both
clients read the same realm and nonce, and answer with them (`parseWwwAuthenticate_digest`,
`clients_answer_challenge`). A realm that ends in `nonce=` closes a `nonce="` of its own, and
both then read `, nonce=` as the nonce (`challengeNonce`). The clients part on a nonce that is
never closed: the pattern finds none, and the slice, whose end `str.find` gives as `-1`,
returns the rest of the line without its last character (`extractNonce_spec`).

The sockets, the random tags and branches, and the printing are left out: each function starts
from the answer's text.

## Main results

* `parseWwwAuthenticate_digest`: `parse_www_authenticate` reads a `Digest` challenge.
* `extractNonce_spec`: where the two clients' nonces agree, and where they part.
* `clients_answer_challenge`: both clients answer a `401` with the challenge's realm and nonce.
-/

namespace NgBencode

/-! ### Python's `str` operations -/

/-- `s.find(sub)`, with `none` where Python returns `-1`. -/
def strFind (sub : List Char) : List Char → Option Nat
  | [] => if sub.isEmpty then some 0 else none
  | c :: s => if sub.isPrefixOf (c :: s) then some 0 else (strFind sub s).map (· + 1)

/-- The `int` that `str.find` returns. -/
def pyIndex : Option Nat → Int
  | some i => i
  | none => -1

/-- A slice bound as Python reads it: a negative one counts from the end. -/
def sliceBound (length : Nat) (i : Int) : Nat :=
  if i < 0 then (length + i).toNat else i.toNat

/-- `s[start:stop]` for bounds that may be negative. -/
def pySlice (s : List Char) (start stop : Int) : List Char :=
  slice s (sliceBound s.length start) (sliceBound s.length stop)

/-- `s.split('\r\n')`. -/
def splitCrlf : List Char → List (List Char)
  | [] => [[]]
  | c :: s =>
    match c, s with
    | '\r', '\n' :: s => [] :: splitCrlf s
    | c, s =>
      match splitCrlf s with
      | l :: ls => (c :: l) :: ls
      | [] => [[c]]
termination_by structural s => s

/-- `f"{x}"` for a value that is a `str` or `None`. -/
def pyFormat : Option (List Char) → List Char
  | some s => s
  | none => "None".toList

/-- `md5_hash(text)`, the same in both scripts: the hex digest of the UTF-8 bytes. -/
def md5Hash (md5 : List UInt8 → List Char) (text : List Char) : List Char :=
  md5 (encodeUtf8 text)

/-- `Digest realm="…", nonce="…"`, the head of a challenge. -/
def digestChallenge (realm nonce : List Char) : List Char :=
  "Digest realm=\"".toList ++ realm ++ "\", nonce=\"".toList ++ nonce ++ ['\x22']

/-- The nonce both clients read from `Digest realm="R", nonce="N"`: `N`, unless `R` ends in
`nonce=`, where the quote that closes the realm opens a nonce of its own, which runs to the
quote before `N`. -/
def challengeNonce (realm nonce : List Char) : List Char :=
  if "nonce=".toList <:+ realm then ", nonce=".toList else nonce

/-! ### The `str` operations on text made of pieces -/

section Str

variable {sub s : List Char}

theorem strFind_of_isPrefixOf (h : sub.isPrefixOf s) : strFind sub s = some 0 := by
  cases s with
  | nil => cases sub <;> simp_all [strFind, List.isPrefixOf]
  | cons c s => simp [strFind, h]

theorem strContains_eq_isSome (sub : List Char) :
    ∀ s, strContains sub s = (strFind sub s).isSome
  | [] => by cases sub <;> rfl
  | c :: s => by
    simp only [strContains, strFind, strContains_eq_isSome sub s]
    cases sub.isPrefixOf (c :: s) <;> simp

/-- Text without `sub` stays without it when a character outside `sub` follows. -/
theorem strContains_append_singleton {x : Char} (h : strContains sub s = false) (hx : x ∉ sub) :
    strContains sub (s ++ [x]) = false := by
  rw [strContains_eq_false_iff] at h ⊢
  rw [List.infix_concat_iff, not_or]
  refine ⟨fun hs => ?_, h⟩
  rcases List.eq_nil_or_concat sub with rfl | ⟨L, y, rfl⟩
  · exact h List.nil_infix
  · rw [List.concat_eq_append] at hs hx
    have := List.reverse_prefix.mpr hs
    simp only [List.reverse_append, List.reverse_cons, List.reverse_nil, List.nil_append,
      List.singleton_append, List.cons_prefix_cons] at this
    exact hx (this.1 ▸ List.mem_append_right L (List.mem_singleton_self y))

/-- The pattern's reading through `str.find`: the value after the first `key="`. -/
theorem quotedParam_eq_bind (key : List Char) : ∀ s : List Char,
    quotedParam key s = (strFind (key ++ ['=', '\x22']) s).bind fun i =>
      let rest := s.drop (i + (key.length + 2))
      if '\x22' ∈ rest then some (rest.takeWhile (· ≠ '\x22')) else none
  | [] => by simp [quotedParam, strFind]
  | c :: s => by
    rw [quotedParam, strFind]
    by_cases h : (key ++ ['=', '\x22']).isPrefixOf (c :: s)
    · simp [h]
    · rw [if_neg h, if_neg h, quotedParam_eq_bind key s]
      cases strFind (key ++ ['=', '\x22']) s <;> simp [Nat.add_right_comm _ 1]

/-- The realm and the nonce of a challenge, read by the pattern after any text without `"`. -/
theorem quotedParam_digestChallenge (pre : List Char) {realm nonce : List Char} (rest : List Char)
    (hpre : '\x22' ∉ pre) (hrealm : '\x22' ∉ realm) (hnonce : '\x22' ∉ nonce) :
    quotedParam "realm".toList (pre ++ digestChallenge realm nonce ++ rest) = some realm ∧
      quotedParam "nonce".toList (pre ++ digestChallenge realm nonce ++ rest) =
        some (challengeNonce realm nonce) := by
  have htext : pre ++ digestChallenge realm nonce ++ rest = (pre ++ "Digest realm=".toList) ++
      '\x22' :: (realm ++ '\x22' :: (", nonce=".toList ++ '\x22' :: (nonce ++ '\x22' :: rest))) := by
    simp [digestChallenge]
  have hd : '\x22' ∉ pre ++ "Digest realm=".toList := by
    simp only [List.mem_append, not_or]
    exact ⟨hpre, by decide⟩
  have hquote : '\x22' ∈ nonce ++ '\x22' :: rest := List.mem_append_right _ (List.mem_cons_self _ _)
  rw [htext]
  constructor
  · have hs : "realm".toList ++ ['='] <:+ pre ++ "Digest realm=".toList :=
      (by decide : "realm=".toList <:+ "Digest realm=".toList).trans (List.suffix_append _ _)
    rw [quotedParam_append_quote _ (by decide) hd, if_pos hs,
      if_pos (List.mem_append_right _ (List.mem_cons_self _ _)), takeWhile_append_cons _ hrealm]
  · have hs : ¬ "nonce".toList ++ ['='] <:+ pre ++ "Digest realm=".toList := fun h =>
      (by decide : ¬ "nonce=".toList <:+ "Digest realm=".toList)
        (List.suffix_of_suffix_length_le h (List.suffix_append _ _) (by decide))
    rw [quotedParam_append_quote _ (by decide) hd, if_neg hs,
      quotedParam_append_quote _ (by decide) hrealm, challengeNonce,
      show "nonce".toList ++ ['='] = "nonce=".toList from rfl]
    by_cases hsuffix : "nonce=".toList <:+ realm
    · -- the realm's closing quote opens the nonce, which runs to the next quote
      rw [if_pos hsuffix, if_pos hsuffix, if_pos (List.mem_append_right _
        (List.mem_cons_self _ _)), takeWhile_append_cons _ (by decide)]
    · rw [if_neg hsuffix, if_neg hsuffix, quotedParam_append_quote _ (by decide) (by decide),
        if_pos (by decide), if_pos hquote, takeWhile_append_cons _ hnonce]

theorem sliceBound_natCast (length n : Nat) : sliceBound length n = n := by
  simp [sliceBound]

theorem find_eq_none_of_drop {data rest : List Char} {c : Char} {pos : Nat}
    (h : data.drop pos = rest) (hc : c ∉ rest) : find data c pos = none := by
  simp only [find, h, Option.map_eq_none', List.indexOf?_eq_none_iff, beq_iff_eq]
  exact fun x hx hxc => hc (hxc ▸ hx)

/-- `s.split('\r\n')` at a line without `\n`. -/
theorem splitCrlf_append {l : List Char} (t : List Char) (hl : '\n' ∉ l) :
    splitCrlf (l ++ '\r' :: '\n' :: t) = l :: splitCrlf t := by
  induction l with
  | nil => rfl
  | cons c l ih =>
    rw [List.mem_cons, not_or] at hl
    rw [List.cons_append, splitCrlf, ih hl.2]
    -- no `\r\n` starts at the head: the line has no `\n`
    rintro s - h
    cases l with
    | nil => exact absurd (List.cons.inj h).1 (by decide)
    | cons d l =>
      obtain ⟨rfl, -⟩ := List.cons.inj h
      exact hl.2 (List.mem_cons_self _ _)

/-- The header found after lines without it. -/
theorem headerValue_lines {name : List Char} {headers : List (List Char)} (t : List Char)
    (hname : '\n' ∉ name ∧ '\r' ∉ name ++ [':'])
    (hheaders : ∀ l ∈ headers, '\n' ∉ l ∧ strContains (name ++ [':']) l = false) :
    headerValue name ((headers.map (· ++ "\r\n".toList)).flatten ++ t) = headerValue name t := by
  induction headers with
  | nil => rfl
  | cons l headers ih =>
    obtain ⟨hl, hocc⟩ := hheaders l (List.mem_cons_self _ _)
    have hline : '\n' ∉ l ++ ['\r'] := by simp [hl]
    have hocc' := (strContains_eq_false_iff _ _).mp (strContains_append_singleton hocc hname.2)
    rw [List.map_cons, List.flatten_cons, List.append_assoc,
      show l ++ "\r\n".toList = (l ++ ['\r']) ++ ['\n'] by simp, List.append_assoc,
      List.singleton_append, headerValue_append_newline _ hname.1 hline hocc',
      ih fun l hl => hheaders l (List.mem_cons_of_mem _ hl)]

/-- The header at the head of the text, up to the end of its line. -/
theorem headerValue_head (name : List Char) {v : List Char} (b : List Char) (hv : v ≠ [])
    (hn : '\n' ∉ v) : headerValue name (name ++ [':', ' '] ++ v ++ '\n' :: b) = some v := by
  obtain ⟨c, s, hcs⟩ : ∃ c s, name ++ [':', ' '] ++ v ++ '\n' :: b = c :: s := by
    cases name <;> exact ⟨_, _, rfl⟩
  have hs : s.drop (name.length + 1) = v ++ '\n' :: b := by
    have := congrArg (List.drop (name.length + 2)) hcs
    rw [List.append_assoc, List.drop_left' (by simp)] at this
    exact this.symm
  have hp : (name ++ [':', ' ']).isPrefixOf (c :: s) := by
    rw [List.isPrefixOf_iff_prefix, ← hcs, List.append_assoc]
    exact List.prefix_append _ _
  rw [hcs, headerValue, hs, takeWhile_append_cons _ hn, if_pos ⟨hp, hv⟩]

end Str

/-- A `401` answer: header lines, each closed by `\r\n`, then the challenge line
`WWW-Authenticate: Digest realm="…", nonce="…"…`, then the rest. -/
def challengeAnswer (headers : List (List Char)) (realm nonce params rest : List Char) :
    List Char :=
  (headers.map (· ++ "\r\n".toList)).flatten ++ "WWW-Authenticate: ".toList ++
    digestChallenge realm nonce ++ params ++ "\r\n".toList ++ rest

/-! ### `test_full_auth.py` -/

namespace FullAuth

variable (md5 : List UInt8 → List Char)

/-- `calculate_digest_response(username, realm, password, method, uri, nonce, nc, cnonce, qop)`:
the `qop=auth` response `MD5(HA1:nonce:nc:cnonce:qop:HA2)` and the cnonce, which, when none is
given, is the first eight hex digits of `str(uuid.uuid4())`. -/
def calculateDigestResponse (username : List Char) (realm : Option (List Char))
    (password method uri : List Char) (nonce : Option (List Char)) (nc : List Char)
    (cnonce : Option (List Char)) (qop uuid4 : List Char) : List Char × List Char :=
  let cnonce := cnonce.getD ((uuid4.filter (· ≠ '-')).take 8)
  let ha1 := md5Hash md5 (username ++ [':'] ++ pyFormat realm ++ [':'] ++ password)
  let ha2 := md5Hash md5 (method ++ [':'] ++ uri)
  let response := md5Hash md5 (ha1 ++ [':'] ++ pyFormat nonce ++ [':'] ++ nc ++ [':'] ++ cnonce ++
    [':'] ++ qop ++ [':'] ++ ha2)
  (response, cnonce)

/-- `parse_www_authenticate(header)`: the two groups of `realm="([^"]*)"` and
`nonce="([^"]*)"`. -/
def parseWwwAuthenticate (header : List Char) : Option (List Char) × Option (List Char) :=
  (searchGroup (quotedParamPattern "realm".toList) header,
    searchGroup (quotedParamPattern "nonce".toList) header)

/-- The `Authorization` value of the second `REGISTER`, from the challenge's realm and nonce:
the digest of user `787` with password `12345` for `REGISTER sip:sip-b2bua.local`. -/
def registerAuthorization (uuid4 : List Char) (challengeRealm nonce : Option (List Char)) :
    List Char :=
  let username := "787".toList
  let uri := "sip:".toList ++ "sip-b2bua.local".toList
  let (responseHash, cnonce) := calculateDigestResponse md5 username challengeRealm
    "12345".toList "REGISTER".toList uri nonce "00000001".toList none "auth".toList uuid4
  "Digest username=\"".toList ++ username ++ "\", realm=\"".toList ++ pyFormat challengeRealm ++
    "\", nonce=\"".toList ++ pyFormat nonce ++ "\", uri=\"".toList ++ uri ++
    "\", response=\"".toList ++ responseHash ++ "\", algorithm=MD5, cnonce=\"".toList ++ cnonce ++
    "\", nc=00000001, qop=auth".toList

/-- `test_sip_authentication()` from the first answer: the `Authorization` value it sends, or
`none` where it stops (no `401 Unauthorized`, or no `WWW-Authenticate: ` header). -/
def testSipAuthentication (uuid4 response1 : List Char) : Option (List Char) :=
  if strContains "401 Unauthorized".toList response1 then
    (searchGroup (headerPattern "WWW-Authenticate".toList) response1).map fun wwwAuth =>
      let (challengeRealm, nonce) := parseWwwAuthenticate wwwAuth
      registerAuthorization md5 uuid4 challengeRealm nonce
  else none

end FullAuth

/-! ### `test_sip_client.py` -/

namespace SipClient

variable (md5 : List UInt8 → List Char)

/-- `calculate_digest_response(username, realm, password, nonce, method, uri)`: the response
without `qop`, `MD5(HA1:nonce:HA2)`. -/
def calculateDigestResponse (username realm password nonce method uri : List Char) :
    List Char :=
  let ha1 := md5Hash md5 (username ++ [':'] ++ realm ++ [':'] ++ password)
  let ha2 := md5Hash md5 (method ++ [':'] ++ uri)
  md5Hash md5 (ha1 ++ [':'] ++ nonce ++ [':'] ++ ha2)

/-- The `Authorization` line `send_sip_register(include_auth=True, nonce=nonce)` adds. -/
def authHeader (nonce : List Char) : List Char :=
  let username := "787".toList
  let realm := "sip-b2bua.local".toList
  let uri := "sip:sip-b2bua.local".toList
  let response := calculateDigestResponse md5 username realm "12345".toList nonce
    "REGISTER".toList uri
  "Authorization: Digest username=\"".toList ++ username ++ "\", ".toList ++ "realm=\"".toList ++
    realm ++ "\", ".toList ++ "nonce=\"".toList ++ nonce ++ "\", ".toList ++ "uri=\"".toList ++
    uri ++ "\", ".toList ++ "response=\"".toList ++ response ++ "\"\r\n".toList

/-- The nonce `send_sip_register` cuts out of a line: from after the first `nonce="` up to the
next `"`, `line[start:end]`, where `end` is `-1` when no `"` follows. -/
def extractNonce (line : List Char) : List Char :=
  let start := pyIndex (strFind "nonce=\"".toList line) + 7
  let stop := pyIndex (find line '\x22' start.toNat)
  pySlice line start stop

/-- What `send_sip_register` returns from the answer it received: for a `401 Unauthorized`,
the nonce of the first line that starts with `WWW-Authenticate:` and holds `nonce="`. -/
def sendSipRegister (responseText : List Char) : Option (List Char) :=
  if strContains "401 Unauthorized".toList responseText then
    (splitCrlf responseText).findSome? fun line =>
      if "WWW-Authenticate:".toList.isPrefixOf line ∧ strContains "nonce=\"".toList line then
        some (extractNonce line)
      else none
  else none

/-- `test_authentication_flow()` from the first answer: the `Authorization` line of the second
`REGISTER`, sent when the first answer gave a nonce that is not empty. -/
def testAuthenticationFlow (responseText : List Char) : Option (List Char) :=
  match sendSipRegister responseText with
  | some nonce => if nonce ≠ [] then some (authHeader md5 nonce) else none
  | none => none

end SipClient

/-! ### The two clients on a challenge -/

/-- **`parse_www_authenticate` reads a `Digest` challenge**: the realm and the nonce of
`Digest realm="…", nonce="…"`, whatever follows, for a realm and a nonce without `"`; for a
realm that ends in `nonce=`, the nonce it reads is `, nonce=`. -/
theorem parseWwwAuthenticate_digest {realm nonce : List Char} (rest : List Char)
    (hrealm : '\x22' ∉ realm) (hnonce : '\x22' ∉ nonce) :
    FullAuth.parseWwwAuthenticate (digestChallenge realm nonce ++ rest) =
      (some realm, some (challengeNonce realm nonce)) := by
  obtain ⟨h1, h2⟩ := quotedParam_digestChallenge [] rest (List.not_mem_nil _) hrealm hnonce
  rw [List.nil_append] at h1 h2
  simp only [FullAuth.parseWwwAuthenticate, searchGroup_quotedParamPattern, h1, h2]

theorem parseWwwAuthenticate_digest_b2bua :
    '\x22' ∉ "sip-b2bua.local".toList ∧ '\x22' ∉ "4f2a9c".toList ∧
      FullAuth.parseWwwAuthenticate (digestChallenge "sip-b2bua.local".toList "4f2a9c".toList ++
        ", algorithm=MD5".toList) = (some "sip-b2bua.local".toList, some "4f2a9c".toList) :=
  ⟨by decide, by decide, (parseWwwAuthenticate_digest _ (by decide) (by decide)).trans (by decide)⟩

theorem extractNonce_of_quotedParam {line v : List Char}
    (h : quotedParam "nonce".toList line = some v) : SipClient.extractNonce line = v := by
  rw [quotedParam_eq_bind] at h
  obtain ⟨i, hi, hv⟩ := Option.bind_eq_some.mp h
  have h7 : "nonce".toList.length + 2 = 7 := rfl
  simp only [h7] at hv
  split_ifs at hv with hq
  obtain rfl := Option.some.inj hv
  obtain ⟨t, ht⟩ := eq_takeWhile_append_cons hq
  have hn := not_mem_takeWhile (line.drop (i + 7))
  generalize (line.drop (i + 7)).takeWhile (· ≠ '\x22') = v at ht hn ⊢
  have hstart : (i : Int) + 7 = ((i + 7 : Nat) : Int) := by push_cast; rfl
  simp only [SipClient.extractNonce, show "nonce=\"".toList = "nonce".toList ++ ['=', '\x22'] from rfl,
    hi, pyIndex, hstart, Int.toNat_natCast, find_of_drop_eq ht hn, pySlice, sliceBound_natCast,
    slice, Nat.add_sub_cancel_left, ht, List.take_left' rfl]

/-- `s.find(sub)` finds the `sub` put after `pre` when no `sub` starts before it: none stands in
`pre` and what follows it up to the last character of `sub`. -/
theorem strFind_append_of_not_isInfix {sub : List Char} (hsub : sub ≠ []) (rest : List Char) :
    ∀ {pre : List Char}, ¬ sub <:+: pre ++ sub.dropLast →
      strFind sub (pre ++ sub ++ rest) = some pre.length
  | [], _ => strFind_of_isPrefixOf (List.isPrefixOf_iff_prefix.mpr (List.prefix_append _ _))
  | c :: pre, h => by
    have hlast : c :: (pre ++ sub ++ rest) =
        (c :: pre ++ sub.dropLast) ++ (sub.getLast hsub :: rest) := by
      conv_lhs => rw [← List.dropLast_append_getLast hsub]
      simp
    -- a `sub` at the head would end before the last character of the `sub` after `pre`
    have hne : ¬ sub.isPrefixOf (c :: (pre ++ sub ++ rest)) := fun hp => by
      rw [List.isPrefixOf_iff_prefix, hlast] at hp
      exact h (List.prefix_of_prefix_length_le hp (List.prefix_append _ _)
        (by simp only [List.length_append, List.length_cons, List.length_dropLast]; omega)).isInfix
    show strFind sub (c :: (pre ++ sub ++ rest)) = _
    rw [strFind, if_neg hne, strFind_append_of_not_isInfix hsub rest
      fun h' => h (h'.trans (List.suffix_cons _ _).isInfix)]
    rfl

/-- A `nonce="` that stands in `pre` followed by `nonce=` stands in `pre`: its quote is in
`pre`. -/
theorem nonce_isInfix_of_append {pre : List Char}
    (h : "nonce=\"".toList <:+: pre ++ "nonce=".toList) : "nonce=\"".toList <:+: pre := by
  obtain ⟨a, b, hab⟩ := h
  rcases List.append_eq_append_iff.mp hab with ⟨a', rfl, -⟩ | ⟨c, hc, hnonce⟩
  · exact ⟨a, a', rfl⟩
  · rcases List.eq_nil_or_concat c with rfl | ⟨L, x, rfl⟩
    · exact ⟨a, [], by rw [List.append_nil, hc, List.append_nil]⟩
    · -- the occurrence would end inside `nonce=`, which holds no quote
      rw [List.concat_eq_append] at hc hnonce
      rw [show "nonce=\"".toList = "nonce=".toList ++ ['\x22'] from rfl, ← List.append_assoc,
        ← List.append_assoc] at hc
      obtain ⟨-, hx⟩ := List.append_inj' hc rfl
      have hq : '\x22' ∈ "nonce=".toList := by
        rw [hnonce, List.singleton_inj.mp hx]
        exact List.mem_append_left _ (List.mem_append_right _ (List.mem_singleton_self _))
      exact absurd hq (by decide)

theorem strFind_nonce_unclosed {pre : List Char} (rest : List Char)
    (hpre : ¬ "nonce=\"".toList <:+: pre) :
    strFind "nonce=\"".toList (pre ++ "nonce=\"".toList ++ rest) = some pre.length :=
  strFind_append_of_not_isInfix (by decide) rest fun h => hpre (nonce_isInfix_of_append h)

theorem drop_nonce_unclosed (pre rest : List Char) :
    (pre ++ "nonce=\"".toList ++ rest).drop (pre.length + 7) = rest :=
  List.drop_left' (by simp)

theorem extractNonce_unclosed {pre rest : List Char} (hpre : ¬ "nonce=\"".toList <:+: pre)
    (hrest : '\x22' ∉ rest) :
    SipClient.extractNonce (pre ++ "nonce=\"".toList ++ rest) = rest.dropLast := by
  have hlen : (pre ++ "nonce=\"".toList ++ rest).length = pre.length + 7 + rest.length := by
    simp
    omega
  have hstart : (pre.length : Int) + 7 = ((pre.length + 7 : Nat) : Int) := by push_cast; rfl
  have hstop : sliceBound (pre.length + 7 + rest.length) (-1) - (pre.length + 7) =
      rest.length - 1 := by
    rw [sliceBound, if_pos (by decide)]
    omega
  simp only [SipClient.extractNonce, strFind_nonce_unclosed rest hpre, pyIndex, hstart,
    Int.toNat_natCast, find_eq_none_of_drop (drop_nonce_unclosed pre rest) hrest, pySlice, hlen,
    sliceBound_natCast, slice, hstop, drop_nonce_unclosed, List.dropLast_eq_take]

theorem quotedParam_nonce_unclosed {pre rest : List Char} (hpre : ¬ "nonce=\"".toList <:+: pre)
    (hrest : '\x22' ∉ rest) : quotedParam "nonce".toList (pre ++ "nonce=\"".toList ++ rest) = none := by
  rw [quotedParam_eq_bind, show "nonce".toList ++ ['=', '\x22'] = "nonce=\"".toList from rfl,
    strFind_nonce_unclosed rest hpre]
  exact if_neg (by rwa [show "nonce".toList.length + 2 = 7 from rfl, drop_nonce_unclosed])

/-- **The two clients' nonces.** Where `test_full_auth.py`'s pattern finds a nonce in a line,
`test_sip_client.py`'s slice cuts out the same one. Where the line opens a nonce and never closes
it, after text that opens none, the pattern finds none, while `line.find('"', start)` returns
`-1` and the slice `line[start:-1]` returns the rest of the line without its last character. -/
theorem extractNonce_spec :
    (∀ line v, (FullAuth.parseWwwAuthenticate line).2 = some v →
        SipClient.extractNonce line = v) ∧
      ∀ pre rest, ¬ "nonce=\"".toList <:+: pre → '\x22' ∉ rest →
        (FullAuth.parseWwwAuthenticate (pre ++ "nonce=\"".toList ++ rest)).2 = none ∧
          SipClient.extractNonce (pre ++ "nonce=\"".toList ++ rest) = rest.dropLast :=
  ⟨fun _ _ h => extractNonce_of_quotedParam (by
      simpa only [FullAuth.parseWwwAuthenticate, searchGroup_quotedParamPattern] using h),
    fun _ _ hpre hrest => ⟨by
      simpa only [FullAuth.parseWwwAuthenticate, searchGroup_quotedParamPattern] using
        quotedParam_nonce_unclosed hpre hrest, extractNonce_unclosed hpre hrest⟩⟩

theorem extractNonce_spec_unclosed :
    (FullAuth.parseWwwAuthenticate "nonce=\"ab\"".toList).2 = some "ab".toList ∧
      SipClient.extractNonce "nonce=\"ab\"".toList = "ab".toList ∧
      ¬ "nonce=\"".toList <:+: "WWW-Authenticate: Digest realm=\"R\", ".toList ∧
      '\x22' ∉ "abc".toList ∧
      (FullAuth.parseWwwAuthenticate ("WWW-Authenticate: Digest realm=\"R\", ".toList ++
        "nonce=\"".toList ++ "abc".toList)).2 = none ∧
      SipClient.extractNonce ("WWW-Authenticate: Digest realm=\"R\", ".toList ++
        "nonce=\"".toList ++ "abc".toList) = "ab".toList :=
  ⟨by decide, extractNonce_spec.1 _ _ (by decide), by decide, by decide,
    (extractNonce_spec.2 _ _ (by decide) (by decide)).1,
    (extractNonce_spec.2 _ _ (by decide) (by decide)).2⟩

/-- `s.split('\r\n')` of lines without `\n`, each closed by `\r\n`. -/
theorem splitCrlf_lines {headers : List (List Char)} (t : List Char)
    (hheaders : ∀ l ∈ headers, '\n' ∉ l) :
    splitCrlf ((headers.map (· ++ "\r\n".toList)).flatten ++ t) = headers ++ splitCrlf t := by
  induction headers with
  | nil => rfl
  | cons l headers ih =>
    rw [List.map_cons, List.flatten_cons, show l ++ "\r\n".toList = l ++ ['\r', '\n'] from rfl]
    simp only [List.append_assoc, List.cons_append, List.nil_append]
    rw [splitCrlf_append _ (hheaders l (List.mem_cons_self _ _)),
      ih fun l hl => hheaders l (List.mem_cons_of_mem _ hl)]

/-- The answer as its header lines, the challenge line, `\r\n` and the rest. -/
theorem challengeAnswer_eq (headers : List (List Char)) (realm nonce params rest : List Char) :
    challengeAnswer headers realm nonce params rest =
      (headers.map (· ++ "\r\n".toList)).flatten ++
        (("WWW-Authenticate: ".toList ++ digestChallenge realm nonce ++ params) ++
          '\r' :: '\n' :: rest) := by
  simp only [challengeAnswer, List.append_assoc]
  rfl

theorem newline_not_mem_digestChallenge {realm nonce : List Char} (hrealm : '\n' ∉ realm)
    (hnonce : '\n' ∉ nonce) : '\n' ∉ digestChallenge realm nonce := by
  simp only [digestChallenge, List.mem_append, not_or]
  exact ⟨⟨⟨⟨by decide, hrealm⟩, by decide⟩, hnonce⟩, by decide⟩

theorem strContains_challengeAnswer {sub : List Char} {headers : List (List Char)}
    (h : strContains sub (headers.map (· ++ "\r\n".toList)).flatten)
    (realm nonce params rest : List Char) :
    strContains sub (challengeAnswer headers realm nonce params rest) := by
  simp only [challengeAnswer, List.append_assoc]
  exact strContains_append_of_left h _

section Challenge

variable (md5 : List UInt8 → List Char) {headers : List (List Char)} {realm nonce params : List Char}
  (rest : List Char)
  (h401 : strContains "401 Unauthorized".toList (headers.map (· ++ "\r\n".toList)).flatten)
  (hheaders : ∀ l ∈ headers, '\n' ∉ l ∧ strContains "WWW-Authenticate:".toList l = false)
  (hrealm : '\x22' ∉ realm ∧ '\n' ∉ realm) (hnonce : '\x22' ∉ nonce ∧ '\n' ∉ nonce)
  (hparams : '\n' ∉ params)
include h401 hheaders hrealm hnonce hparams

/-- `test_full_auth.py` on the answer: the header its pattern cuts out is the rest of the challenge
line, `\r` included, and the two parameters of that are the challenge's. -/
theorem testSipAuthentication_challengeAnswer (uuid4 : List Char) :
    FullAuth.testSipAuthentication md5 uuid4 (challengeAnswer headers realm nonce params rest) =
      some (FullAuth.registerAuthorization md5 uuid4 (some realm)
        (some (challengeNonce realm nonce))) := by
  have hvalue : searchGroup (headerPattern "WWW-Authenticate".toList)
      (challengeAnswer headers realm nonce params rest) =
        some (digestChallenge realm nonce ++ params ++ ['\r']) := by
    rw [searchGroup_headerPattern, challengeAnswer_eq,
      headerValue_lines _ ⟨by decide, by decide⟩ hheaders,
      show "WWW-Authenticate: ".toList = "WWW-Authenticate".toList ++ [':', ' '] from rfl]
    have := headerValue_head "WWW-Authenticate".toList rest
      (v := digestChallenge realm nonce ++ params ++ ['\r']) (by simp)
      (by simp [newline_not_mem_digestChallenge hrealm.2 hnonce.2, hparams])
    simpa only [List.append_assoc, List.cons_append, List.nil_append] using this
  obtain ⟨h1, h2⟩ := quotedParam_digestChallenge [] (params ++ ['\r']) (List.not_mem_nil _)
    hrealm.1 hnonce.1
  rw [List.nil_append, ← List.append_assoc] at h1 h2
  simp only [FullAuth.testSipAuthentication, strContains_challengeAnswer h401, if_true, hvalue,
    Option.map_some', FullAuth.parseWwwAuthenticate, searchGroup_quotedParamPattern, h1, h2]

/-- `test_sip_client.py` on the answer: the header lines are passed over, and the nonce is cut out
of the challenge line. -/
theorem testAuthenticationFlow_challengeAnswer :
    SipClient.testAuthenticationFlow md5 (challengeAnswer headers realm nonce params rest) =
      if challengeNonce realm nonce = [] then none
      else some (SipClient.authHeader md5 (challengeNonce realm nonce)) := by
  have hline : '\n' ∉ "WWW-Authenticate: ".toList ++ digestChallenge realm nonce ++ params := by
    simp only [List.mem_append, not_or]
    exact ⟨⟨by decide, newline_not_mem_digestChallenge hrealm.2 hnonce.2⟩, hparams⟩
  have hpass : ∀ l ∈ headers, ¬ ("WWW-Authenticate:".toList.isPrefixOf l ∧
      strContains "nonce=\"".toList l) := fun l hl h => by
    have := strContains_eq_isSome _ _ ▸ (hheaders l hl).2
    rw [strFind_of_isPrefixOf h.1] at this
    exact absurd this (by decide)
  have hread : "WWW-Authenticate:".toList.isPrefixOf
      ("WWW-Authenticate: ".toList ++ digestChallenge realm nonce ++ params) ∧
      strContains "nonce=\"".toList
        ("WWW-Authenticate: ".toList ++ digestChallenge realm nonce ++ params) := by
    have hhead : "WWW-Authenticate:".toList <+: "WWW-Authenticate: ".toList := by decide
    have htext : "WWW-Authenticate: ".toList ++ digestChallenge realm nonce ++ params =
        ("WWW-Authenticate: ".toList ++ "Digest realm=\"".toList ++ realm ++ "\", ".toList) ++
          ("nonce=\"".toList ++ (nonce ++ ['\x22'] ++ params)) := by
      simp only [digestChallenge, show "\", nonce=\"".toList = "\", ".toList ++ "nonce=\"".toList
        from rfl, List.append_assoc]
    refine ⟨List.isPrefixOf_iff_prefix.mpr ((hhead.trans (List.prefix_append _ _)).trans
      (List.prefix_append _ _)), ?_⟩
    rw [htext]
    exact strContains_append_right (strContains_append_left _ _) _
  have hnonce' := extractNonce_of_quotedParam (quotedParam_digestChallenge
    "WWW-Authenticate: ".toList params (by decide) hrealm.1 hnonce.1).2
  have hfirst : headers.findSome? (fun line =>
      if "WWW-Authenticate:".toList.isPrefixOf line ∧ strContains "nonce=\"".toList line then
        some (SipClient.extractNonce line)
      else none) = none :=
    List.findSome?_eq_none_iff.mpr fun l hl => if_neg (hpass l hl)
  rw [SipClient.testAuthenticationFlow, SipClient.sendSipRegister,
    if_pos (strContains_challengeAnswer h401 _ _ _ _), challengeAnswer_eq,
    splitCrlf_lines _ (fun l hl => (hheaders l hl).1), splitCrlf_append _ hline,
    List.findSome?_append, hfirst, Option.none_or, List.findSome?_cons, if_pos hread, hnonce']
  by_cases hn : challengeNonce realm nonce = [] <;> simp [hn]

end Challenge

/-- **Both clients answer a standard challenge with its realm and nonce.** For a `401` answer
whose header lines before the challenge hold no `WWW-Authenticate:`, `test_full_auth.py` sends the
digest for the challenge's realm and nonce, and `test_sip_client.py` the digest for its nonce,
unless that nonce is empty, which Python reads as false. For a realm that ends in `nonce=`,
both read `, nonce=` as the nonce instead (`challengeNonce`) and answer with it. -/
theorem clients_answer_challenge (md5 : List UInt8 → List Char) (uuid4 : List Char)
    {headers : List (List Char)} {realm nonce params : List Char} (rest : List Char)
    (h401 : strContains "401 Unauthorized".toList (headers.map (· ++ "\r\n".toList)).flatten)
    (hheaders : ∀ l ∈ headers, '\n' ∉ l ∧ strContains "WWW-Authenticate:".toList l = false)
    (hrealm : '\x22' ∉ realm ∧ '\n' ∉ realm) (hnonce : '\x22' ∉ nonce ∧ '\n' ∉ nonce)
    (hparams : '\n' ∉ params) :
    FullAuth.testSipAuthentication md5 uuid4 (challengeAnswer headers realm nonce params rest) =
        some (FullAuth.registerAuthorization md5 uuid4 (some realm)
          (some (challengeNonce realm nonce))) ∧
      SipClient.testAuthenticationFlow md5 (challengeAnswer headers realm nonce params rest) =
        if challengeNonce realm nonce = [] then none
        else some (SipClient.authHeader md5 (challengeNonce realm nonce)) :=
  ⟨testSipAuthentication_challengeAnswer md5 rest h401 hheaders hrealm hnonce hparams uuid4,
    testAuthenticationFlow_challengeAnswer md5 rest h401 hheaders hrealm hnonce hparams⟩

theorem clients_answer_challenge_b2bua :
    strContains "401 Unauthorized".toList
        (["SIP/2.0 401 Unauthorized".toList].map (· ++ "\r\n".toList)).flatten ∧
      (∀ l ∈ ["SIP/2.0 401 Unauthorized".toList],
        '\n' ∉ l ∧ strContains "WWW-Authenticate:".toList l = false) ∧
      ('\x22' ∉ "b2bua".toList ∧ '\n' ∉ "b2bua".toList) ∧ ('\x22' ∉ "4f2a".toList ∧ '\n' ∉ "4f2a".toList) ∧
      '\n' ∉ ", qop=\"auth\"".toList ∧
      FullAuth.testSipAuthentication (fun _ => []) [] (challengeAnswer
          ["SIP/2.0 401 Unauthorized".toList] "b2bua".toList "4f2a".toList ", qop=\"auth\"".toList []) =
        some (FullAuth.registerAuthorization (fun _ => []) [] (some "b2bua".toList)
          (some (challengeNonce "b2bua".toList "4f2a".toList))) ∧
      SipClient.testAuthenticationFlow (fun _ => []) (challengeAnswer
          ["SIP/2.0 401 Unauthorized".toList] "b2bua".toList "4f2a".toList ", qop=\"auth\"".toList []) =
        if challengeNonce "b2bua".toList "4f2a".toList = [] then none
        else some (SipClient.authHeader (fun _ => []) (challengeNonce "b2bua".toList "4f2a".toList)) :=
  ⟨by decide, by decide, by decide, by decide, by decide,
    (clients_answer_challenge _ _ _ (by decide) (by decide) (by decide) (by decide)
      (by decide)).1,
    (clients_answer_challenge _ [] _ (by decide) (by decide) (by decide) (by decide)
      (by decide)).2⟩

end NgBencode
