import NgBencode.Completeness

/-!
# The request builders

The scripts build RTPEngine NG requests with f-strings: every key and value is written as
`f'{len(s)}:{s}'`, and a dictionary as `'d'`, its fields, and `'e'`. Each builder here keeps
its script's name and is that encoding applied to the fields the script writes, in its order.
Where a script first turns a command into JSON with `json.dumps`, the builder takes the JSON
text; every statement below holds for every text, the JSON ones among them.

`parse_bencode` reads each of them back as the dictionary of its fields
(`request_builders_roundtrip`): every length prefix `f'{len(s)}'` is read back by `int`
(`int_toDigits`), and the value after it is exactly `s`, whatever characters it holds. Python
compares dicts without regard to order, so `{"command": m, "cookie": c}`, as the builders that
write the command first produce it, is the dict `{"cookie": c, "command": m}`; the statements
give the order too.
-/

namespace NgBencode

/-- `f'{len(s)}:{s}'`: a string as the scripts write it, its length counted in characters. -/
def benStr (s : List Char) : List Char :=
  Nat.toDigits 10 s.length ++ ':' :: s

/-- `'d' + ''.join(f'{len(k)}:{k}{len(v)}:{v}' for k, v in fields) + 'e'`: a dictionary of
string fields as the scripts write it. -/
def benDict (fields : List (List Char × List Char)) : List Char :=
  'd' :: (fields.flatMap fun f => benStr f.1 ++ benStr f.2) ++ ['e']

/-- The value `parse_bencode` gives a string field. -/
def strField (f : List Char × List Char) : List Char × PyVal :=
  (f.1, .str f.2)

/-! ### The builders -/

/-- `format_standard_ng(cookie, command)` (`test-rtpengine-patterns.py`), from the text
`json.dumps(command, separators=(',', ':'))`. -/
def formatStandardNg (cookie commandJson : List Char) : List Char :=
  benDict [("cookie".toList, cookie), ("command".toList, commandJson)]

/-- `format_with_call_id(cookie, command, extra_fields)` (`test-rtpengine-patterns.py`): the
extra fields between the cookie and the command, in the dict's order. -/
def formatWithCallId (cookie commandJson : List Char)
    (extraFields : List (List Char × List Char)) : List Char :=
  benDict ([("cookie".toList, cookie)] ++ extraFields ++ [("command".toList, commandJson)])

/-- `format_kamailio_style(cookie, command)` (`test-rtpengine-patterns.py`), from the text
`json.dumps(command, separators=(', ', ': '))`. -/
def formatKamailioStyle (cookie commandJson : List Char) : List Char :=
  benDict [("cookie".toList, cookie), ("command".toList, commandJson)]

/-- `format_opensips_style(cookie, command)` (`test-rtpengine-patterns.py`): the command
first. -/
def formatOpensipsStyle (cookie commandJson : List Char) : List Char :=
  benDict [("command".toList, commandJson), ("cookie".toList, cookie)]

/-- `format_minimal(cookie, command)` (`test-rtpengine-patterns.py`): the raw text
`command['command']`, and `none` for the `KeyError` of a dict without that key. -/
def formatMinimal (cookie : List Char) (command : List (List Char × List Char)) :
    Option (List Char) :=
  (command.lookup "command".toList).map fun cmdStr =>
    benDict [("cookie".toList, cookie), ("command".toList, cmdStr)]

/-- `create_proper_bencode(cookie, command_dict)` (`test-proper-bencode.py`): the command
first, "lexicographically before 'cookie'". -/
def createProperBencode (cookie commandJson : List Char) : List Char :=
  benDict [("command".toList, commandJson), ("cookie".toList, cookie)]

/-- `create_minimal_bencode(cookie, command_str)` (`test-proper-bencode.py`). -/
def createMinimalBencode (cookie commandStr : List Char) : List Char :=
  benDict [("command".toList, commandStr), ("cookie".toList, cookie)]

/-- `create_bencode_command(cookie, json_data)` (`test-rtpengine-bencode.py`). -/
def createBencodeCommand (cookie jsonStr : List Char) : List Char :=
  benDict [("cookie".toList, cookie), ("command".toList, jsonStr)]

/-- `create_rtpengine_message(cookie, command_dict)` (`test-correct-rtpengine-format.py`): the
cookie, a space, and a dictionary holding the command's JSON text. -/
def createRtpengineMessage (cookie commandJson : List Char) : List Char :=
  cookie ++ ' ' :: benDict [("command".toList, commandJson)]

/-- `create_minimal_rtpengine_message(cookie, command_str)`
(`test-correct-rtpengine-format.py`), also the message `test-final-format.py` sends. -/
def createMinimalRtpengineMessage (cookie commandStr : List Char) : List Char :=
  cookie ++ ' ' :: benDict [("command".toList, commandStr)]

/-! ### Reading them back -/

section

variable {u : UnicodeDb}

/-- A string as the scripts write it is a string word with that value. -/
theorem derive_benStr (s t : List Char) :
    Derive (Numerals.python u) .value (benStr s ++ t) (.str s) t := by
  obtain ⟨hne, hd, -⟩ := toDigits_spec s.length
  obtain ⟨c, r, hcr⟩ := List.exists_cons_of_ne_nil hne
  have hc := hd c (hcr ▸ List.mem_cons_self _ _)
  have hs : (Numerals.python u).str (Nat.toDigits 10 s.length) s.length :=
    ⟨⟨c, r, hcr, by rw [isdigit_of_ascii (toNat_lt_of_isDigit hc), hc]⟩,
      not_mem_toDigits ':' rfl _, int_toDigits u _⟩
  simpa [benStr] using Derive.str (t := t) hs rfl

/-- The fields of a dictionary as the scripts write them, and its closing `e`, are pairs
setting each field in turn. -/
theorem derive_fields (fields : List (List Char × List Char)) (t : List Char) :
    Derive (Numerals.python u) .pairs
      ((fields.flatMap fun f => benStr f.1 ++ benStr f.2) ++ 'e' :: t)
      (.dict (fields.map strField)) t := by
  induction fields with
  | nil => exact .pairsEnd
  | cons f fields ih =>
    simpa [List.append_assoc] using
      Derive.pairsCons (derive_benStr f.1 _) (derive_benStr f.2 _) ih

/-- A dictionary as the scripts write it is a dictionary word, of its fields set in order. -/
theorem derive_benDict (fields : List (List Char × List Char)) :
    Derive (Numerals.python u) .value (benDict fields)
      (.dict (Dict.update [] (fields.map strField))) [] := by
  simpa [benDict] using Derive.dict (derive_fields fields [])

/-- **`parse_bencode` reads a dictionary as the scripts write it back**, as the dict of its
fields set in order. -/
theorem parseBencode_benDict (fields : List (List Char × List Char)) :
    parseBencode u (benDict fields) = some (.dict (Dict.update [] (fields.map strField))) := by
  rw [parseBencode, innerParse_of_derive (derive_benDict fields)]

/-- **A string as the scripts write it reads only as itself**: its length prefix ends at the
first `:`, and fixes where the string ends. -/
theorem Derive.of_benStr_append {w t t' : List Char} {v : PyVal}
    (h : Derive (Numerals.python u) .value (benStr w ++ t) v t') : v = .str w ∧ t' = t := by
  obtain ⟨hne, hd, -⟩ := toDigits_spec w.length
  obtain ⟨c, r, hcr⟩ := List.exists_cons_of_ne_nil hne
  have hc : c.isDigit = true := hd c (hcr ▸ List.mem_cons_self _ _)
  generalize hs : benStr w ++ t = s at h
  cases h with
  | @str n w' t' k hn hw =>
    obtain ⟨-, hcolon, hk⟩ := hn
    rw [benStr, List.append_assoc, List.cons_append] at hs
    obtain ⟨rfl, hrest⟩ := eq_of_append_cons_eq (not_mem_toDigits ':' rfl _) hcolon hs
    rw [int_toDigits] at hk
    have hlen : w.length = w'.length := by
      have := Outcome.ok.inj hk
      omega
    obtain ⟨rfl, rfl⟩ := List.append_inj hrest hlen
    exact ⟨rfl, rfl⟩
  | int | list | dict =>
    rw [benStr, hcr] at hs
    exact absurd hc (by rw [(List.cons.inj hs).1]; decide)

/-- A key and a string value as the scripts write them start the pairs of a dictionary only as
that entry. -/
theorem Derive.of_benStr_pair {k w t t' : List Char} {v : PyVal}
    (h : Derive (Numerals.python u) .pairs (benStr k ++ benStr w ++ t) v t') :
    ∃ es, v = .dict ((k, .str w) :: es) ∧
      Derive (Numerals.python u) .pairs t (.dict es) t' := by
  generalize hs : benStr k ++ benStr w ++ t = s at h
  cases h with
  | pairsEnd =>
    obtain ⟨hne, hd, -⟩ := toDigits_spec k.length
    obtain ⟨c, r, hcr⟩ := List.exists_cons_of_ne_nil hne
    rw [benStr, hcr] at hs
    exact absurd (hd c (hcr ▸ List.mem_cons_self _ _)) (by rw [(List.cons.inj hs).1]; decide)
  | pairsCons hk hv hes =>
    subst hs
    rw [List.append_assoc] at hk
    obtain ⟨hkey, rfl⟩ := hk.of_benStr_append
    obtain ⟨rfl, rfl⟩ := hv.of_benStr_append
    cases hkey
    exact ⟨_, rfl, hes⟩

end

/-- **Decoding undoes every request builder.** For every cookie `c`, command text `m` and
extra fields `x`, `parse_bencode` reads each dictionary builder back as `{"cookie": c,
"command": m}` (`format_with_call_id` as `{"cookie": c}` updated by `x`, then by the
command); and when `c` holds no space, `split(' ', 1)` of each message gives `c` and a text
that `parse_bencode` reads as `{"command": m}`. -/
theorem request_builders_roundtrip (u : UnicodeDb) (c m : List Char)
    (x : List (List Char × List Char)) :
    parseBencode u (formatStandardNg c m) =
        some (.dict [("cookie".toList, .str c), ("command".toList, .str m)]) ∧
      parseBencode u (formatOpensipsStyle c m) =
        some (.dict [("command".toList, .str m), ("cookie".toList, .str c)]) ∧
      parseBencode u (createProperBencode c m) =
        some (.dict [("command".toList, .str m), ("cookie".toList, .str c)]) ∧
      parseBencode u (createMinimalBencode c m) =
        some (.dict [("command".toList, .str m), ("cookie".toList, .str c)]) ∧
      parseBencode u (createBencodeCommand c m) =
        some (.dict [("cookie".toList, .str c), ("command".toList, .str m)]) ∧
      parseBencode u (formatWithCallId c m x) =
        some (.dict (Dict.update (Dict.update [("cookie".toList, .str c)] (x.map strField))
          [("command".toList, .str m)])) ∧
      (' ' ∉ c → ∃ rest, splitOnce ' ' (createRtpengineMessage c m) = [c, rest] ∧
        parseBencode u rest = some (.dict [("command".toList, .str m)])) ∧
      (' ' ∉ c → ∃ rest, splitOnce ' ' (createMinimalRtpengineMessage c m) = [c, rest] ∧
        parseBencode u rest = some (.dict [("command".toList, .str m)])) := by
  have hmsg : ' ' ∉ c → ∃ rest, splitOnce ' ' (c ++ ' ' :: benDict [("command".toList, m)]) =
      [c, rest] ∧ parseBencode u rest = some (.dict [("command".toList, .str m)]) :=
    fun hc => ⟨_, splitOnce_append_cons hc, parseBencode_benDict _⟩
  refine ⟨parseBencode_benDict _, parseBencode_benDict _, parseBencode_benDict _,
    parseBencode_benDict _, parseBencode_benDict _, ?_, hmsg, hmsg⟩
  rw [formatWithCallId, parseBencode_benDict, List.map_append, List.map_append,
    Dict.update_append, Dict.update_append]
  rfl

end NgBencode
