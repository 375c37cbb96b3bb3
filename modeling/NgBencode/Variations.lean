import NgBencode.Request

/-!
# `create_bencode_variations`

`test-duplicate-detection.py` builds six payloads with f-strings around a session id and a
numeric cookie read from the clock, and sends each to RTPEngine. Five write every key and
value with its length, as the other builders do, and `parse_bencode` reads them back as the
dictionaries they spell, for every session id and cookie.

The third, "With transaction ID", writes its key as the literal `12:transaction-id`, but
`transaction-id` has 14 characters. A reader takes the 12 characters `transaction-` as the key,
and then reads the value from `id...`: an integer whose numeral starts with `d`, which `int`
refuses. So `parse_bencode` returns a parse error on it whatever the session id
(`createBencodeVariations_parse`). The proof reads the payload back through the grammar: a
string written with its length derives only itself (`Derive.of_benStr_append`), which pins
down every word up to the refused numeral.

## Main results

* `innerParse_ne_ok_of_short_key`: a cookie followed by the key `12:transaction-id` is refused,
  whatever follows.
* `createBencodeVariations_parse`: what `parse_bencode` returns on each of the six payloads.
-/

namespace NgBencode

/-- `create_bencode_variations()` (`test-duplicate-detection.py`): its six payloads with
their names, for the session id `str(int(time.time()))` and the cookie
`str(int(time.time() * 1000))` it reads from the clock. -/
def createBencodeVariations (sessionId numericCookie : List Char) : List (String × List Char) :=
  let baseCookie := "test_".toList ++ sessionId
  let cmd1 := "\x7b\"command\":\"ping\"\x7d".toList
  let bencode1 := "d6:cookie".toList ++ Nat.toDigits 10 baseCookie.length ++ ':' :: baseCookie ++
    "7:command".toList ++ Nat.toDigits 10 cmd1.length ++ ':' :: cmd1 ++ ['e']
  let callId := "testcall".toList
  let cmd2 := "\x7b\"command\":\"ping\",\"call-id\":\"".toList ++ callId ++ "\"\x7d".toList
  let bencode2 := "d6:cookie".toList ++ Nat.toDigits 10 baseCookie.length ++ ':' :: baseCookie ++
    "7:call-id".toList ++ Nat.toDigits 10 callId.length ++ ':' :: callId ++
    "7:command".toList ++ Nat.toDigits 10 cmd2.length ++ ':' :: cmd2 ++ ['e']
  let transactionId := "trans_".toList ++ sessionId
  let bencode3 := "d6:cookie".toList ++ Nat.toDigits 10 baseCookie.length ++ ':' :: baseCookie ++
    "12:transaction-id".toList ++ Nat.toDigits 10 transactionId.length ++ ':' :: transactionId ++
    "7:command".toList ++ Nat.toDigits 10 cmd1.length ++ ':' :: cmd1 ++ ['e']
  let bencode4 := "d6:cookie".toList ++ Nat.toDigits 10 baseCookie.length ++ ':' :: baseCookie ++
    "7:command4:pinge".toList
  let shortCookie := "test123".toList
  let bencode5 := "d6:cookie".toList ++ Nat.toDigits 10 shortCookie.length ++ ':' :: shortCookie ++
    "7:command".toList ++ Nat.toDigits 10 cmd1.length ++ ':' :: cmd1 ++ ['e']
  let bencode6 := "d6:cookie".toList ++ Nat.toDigits 10 numericCookie.length ++ ':' ::
    numericCookie ++ "7:command".toList ++ Nat.toDigits 10 cmd1.length ++ ':' :: cmd1 ++ ['e']
  [("Basic ping format", bencode1), ("With call-id", bencode2),
    ("With transaction ID", bencode3), ("Minimal ping", bencode4), ("Short cookie", bencode5),
    ("Numeric cookie", bencode6)]

/-! ### The payloads that are dictionaries -/

/-- A cookie and a command, written as the f-strings of `create_bencode_variations` write
them, are a dictionary as the scripts write it. -/
theorem cookie_command_eq_benDict (c m : List Char) :
    "d6:cookie".toList ++ Nat.toDigits 10 c.length ++ ':' :: c ++ "7:command".toList ++
      Nat.toDigits 10 m.length ++ ':' :: m ++ ['e'] =
      benDict [("cookie".toList, c), ("command".toList, m)] := by
  rw [show "d6:cookie".toList = 'd' :: benStr "cookie".toList from rfl,
    show "7:command".toList = benStr "command".toList from rfl]
  simp [benDict, benStr]

theorem cookie_callId_command_eq_benDict (c i m : List Char) :
    "d6:cookie".toList ++ Nat.toDigits 10 c.length ++ ':' :: c ++ "7:call-id".toList ++
      Nat.toDigits 10 i.length ++ ':' :: i ++ "7:command".toList ++
      Nat.toDigits 10 m.length ++ ':' :: m ++ ['e'] =
      benDict [("cookie".toList, c), ("call-id".toList, i), ("command".toList, m)] := by
  rw [show "d6:cookie".toList = 'd' :: benStr "cookie".toList from rfl,
    show "7:call-id".toList = benStr "call-id".toList from rfl,
    show "7:command".toList = benStr "command".toList from rfl]
  simp [benDict, benStr]

theorem cookie_ping_eq_benDict (c : List Char) :
    "d6:cookie".toList ++ Nat.toDigits 10 c.length ++ ':' :: c ++ "7:command4:pinge".toList =
      benDict [("cookie".toList, c), ("command".toList, "ping".toList)] := by
  rw [show "d6:cookie".toList = 'd' :: benStr "cookie".toList from rfl,
    show "7:command4:pinge".toList = benStr "command".toList ++ benStr "ping".toList ++ ['e']
      from rfl]
  simp [benDict, benStr]

/-! ### The payload with the short key -/

section

variable {u : UnicodeDb}

/-- What follows a key whose prefix counts too few characters: the rest of the key, `id`,
starts an integer whose numeral starts with `d`, which `int` refuses. -/
theorem innerParse_ne_ok_of_short_key (base rest : List Char) (v : PyVal) :
    innerParse u ("d6:cookie".toList ++ (Nat.toDigits 10 base.length ++ ':' ::
      (base ++ ("12:transaction-id".toList ++ rest)))) ≠ .ok v := by
  have e : "d6:cookie".toList ++ (Nat.toDigits 10 base.length ++ ':' ::
      (base ++ ("12:transaction-id".toList ++ rest))) =
      'd' :: (benStr "cookie".toList ++ benStr base ++
        (benStr "transaction-".toList ++ 'i' :: 'd' :: rest)) := by
    rw [show "d6:cookie".toList = 'd' :: benStr "cookie".toList from rfl,
      show "12:transaction-id".toList = benStr "transaction-".toList ++ ['i', 'd'] from rfl]
    simp [benStr]
  rw [e]
  intro h
  have hd := derive_of_innerParse h
  generalize hs : 'd' :: _ = s at hd
  cases hd with
  | str hn =>
    obtain ⟨⟨c, r, rfl, hc⟩, -⟩ := hn
    rw [← (List.cons.inj hs).1] at hc
    cases hc
  | int | list => cases hs
  | dict hes =>
    obtain ⟨-, rfl⟩ := List.cons.inj hs
    obtain ⟨_, -, hes⟩ := hes.of_benStr_pair
    generalize hs' : benStr "transaction-".toList ++ _ = s' at hes
    cases hes with
    | pairsEnd => cases hs'
    | pairsCons hk hv =>
      subst hs'
      obtain ⟨-, rfl⟩ := hk.of_benStr_append
      generalize hi : 'i' :: 'd' :: rest = s'' at hv
      cases hv with
      | str hn =>
        obtain ⟨⟨c, r, rfl, hc⟩, -⟩ := hn
        rw [← (List.cons.inj hi).1] at hc
        cases hc
      | list | dict => cases hi
      | @int n t k hn =>
        cases n with
        | nil => cases hi
        | cons c n =>
          obtain ⟨rfl, -⟩ := List.cons.inj (List.cons.inj hi).2
          exact int_ne_ok_of_head u (by decide) (by decide) (by decide) (by decide) (by decide)
            hn.2

theorem parseBencode_of_short_key (base rest : List Char) :
    ∃ msg, parseBencode u ("d6:cookie".toList ++ (Nat.toDigits 10 base.length ++ ':' ::
      (base ++ ("12:transaction-id".toList ++ rest)))) =
        some (.str ("Parse error: " ++ msg).toList) := by
  unfold parseBencode
  split
  · next v h => exact absurd h (innerParse_ne_ok_of_short_key _ _ _)
  · next msg _ => exact ⟨msg, rfl⟩
  · next h => exact absurd h (innerParse_ne_outOfFuel _ _)

end

/-- **What `parse_bencode` makes of each payload.** For every session id and numeric cookie,
five payloads read back as the dictionaries they spell, and the one whose key prefix is too
short is a parse error. -/
theorem createBencodeVariations_parse (u : UnicodeDb) (sessionId numericCookie : List Char) :
    ∃ msg, (createBencodeVariations sessionId numericCookie).map (fun p => parseBencode u p.2) =
      [some (.dict [("cookie".toList, .str ("test_".toList ++ sessionId)),
          ("command".toList, .str "\x7b\"command\":\"ping\"\x7d".toList)]),
        some (.dict [("cookie".toList, .str ("test_".toList ++ sessionId)),
          ("call-id".toList, .str "testcall".toList),
          ("command".toList,
            .str "\x7b\"command\":\"ping\",\"call-id\":\"testcall\"\x7d".toList)]),
        some (.str ("Parse error: " ++ msg).toList),
        some (.dict [("cookie".toList, .str ("test_".toList ++ sessionId)),
          ("command".toList, .str "ping".toList)]),
        some (.dict [("cookie".toList, .str "test123".toList),
          ("command".toList, .str "\x7b\"command\":\"ping\"\x7d".toList)]),
        some (.dict [("cookie".toList, .str numericCookie),
          ("command".toList, .str "\x7b\"command\":\"ping\"\x7d".toList)])] := by
  simp only [createBencodeVariations, List.map_cons, List.map_nil, cookie_command_eq_benDict,
    cookie_callId_command_eq_benDict, cookie_ping_eq_benDict, parseBencode_benDict,
    List.cons.injEq, and_true, exists_and_left, exists_and_right]
  refine ⟨rfl, rfl, ?_, rfl, rfl, rfl⟩
  simp only [List.append_assoc, List.cons_append]
  exact parseBencode_of_short_key _ _

end NgBencode
