import NgBencode.Request

/-!
# The bytes on the wire

The scripts send `payload.encode('utf-8')`. The length prefix a str-based builder writes is
`len(s)`, a count of characters; `create_ping_command` (`test-rtpengine-health.py`) instead
counts the bytes of its JSON text, `len(json_str.encode('utf-8'))`. `benStrUtf8` and
`benDictUtf8` frame a field and a dictionary of fields that way.

Framing by bytes is right for every text. Read byte by byte, each byte as the character of
its code (what `bytes.decode('latin-1')` gives), `parse_bencode` gets back the bytes of every
key and value (`parseBencode_decodeLatin1_benDictUtf8`). Framing by characters gives the same
bytes exactly when every character is ASCII (`encodeUtf8_benDict_eq_iff`). So the builders
that write a raw command frame it right exactly on ASCII texts
(`minimal_builders_frame_bytes_iff`), and a single `é`, one character and two bytes, is
enough to break them (`minimal_builders_count_code_points`).

## Main results

* `encodeUtf8_benDict_eq_iff`: the bytes of a dictionary framed by characters are the
  dictionary framed by bytes iff every key and value is ASCII.
* `minimal_builders_frame_bytes_iff`: the same for the three builders that write a raw
  command.
* `parseBencode_decodeLatin1_benDictUtf8`: a byte-level reading of a dictionary framed by
  bytes gives the bytes of its fields.
-/

namespace NgBencode

/-- `s.encode('utf-8')`: the bytes of a text. -/
def encodeUtf8 (s : List Char) : List UInt8 :=
  s.flatMap String.utf8EncodeChar

/-- `b.decode('latin-1')`: every byte read as the character of its code. -/
def decodeLatin1 (bs : List UInt8) : List Char :=
  bs.map fun b => Char.ofNat b.toNat

/-- `f'{len(b)}:{s}'.encode('utf-8')` with `b = s.encode('utf-8')`: a string framed as
`create_ping_command` frames its JSON text, its length counted in bytes. -/
def benStrUtf8 (s : List Char) : List UInt8 :=
  encodeUtf8 (Nat.toDigits 10 (encodeUtf8 s).length ++ ':' :: s)

/-- A dictionary of string fields framed by bytes: every length prefix is the byte length of
the string after it. -/
def benDictUtf8 (fields : List (List Char × List Char)) : List UInt8 :=
  encodeUtf8 ['d'] ++ fields.flatMap (fun f => benStrUtf8 f.1 ++ benStrUtf8 f.2) ++
    encodeUtf8 ['e']

/-- `create_ping_command()` (`test-rtpengine-health.py`): `json_str` is the text
`json.dumps({"command": "ping"}, separators=(',', ':'))`. -/
def createPingCommand : List UInt8 :=
  let jsonStr := "\x7b\"command\":\"ping\"\x7d".toList
  let jsonBytes := encodeUtf8 jsonStr
  encodeUtf8 ("d7:command".toList ++ Nat.toDigits 10 jsonBytes.length ++ ':' :: jsonStr ++ ['e'])

@[simp] theorem encodeUtf8_nil : encodeUtf8 [] = [] := rfl

@[simp] theorem encodeUtf8_cons (c : Char) (s : List Char) :
    encodeUtf8 (c :: s) = String.utf8EncodeChar c ++ encodeUtf8 s :=
  List.flatMap_cons _ _ _

@[simp] theorem encodeUtf8_append (s t : List Char) :
    encodeUtf8 (s ++ t) = encodeUtf8 s ++ encodeUtf8 t :=
  List.flatMap_append _ _ _

@[simp] theorem decodeLatin1_append (bs cs : List UInt8) :
    decodeLatin1 (bs ++ cs) = decodeLatin1 bs ++ decodeLatin1 cs :=
  List.map_append _ _ _

@[simp] theorem length_decodeLatin1 (bs : List UInt8) : (decodeLatin1 bs).length = bs.length :=
  List.length_map _ _

/-! ### ASCII characters are single bytes -/

theorem utf8Size_eq_one_iff {c : Char} : c.utf8Size = 1 ↔ c.toNat < 128 := by
  have key : ∀ n h, (c.val ≤ UInt32.ofNatCore n h ↔ c.toNat ≤ n) := fun _ _ => Iff.rfl
  unfold Char.utf8Size
  dsimp only
  split_ifs <;> simp only [key] at * <;> simp <;> omega

theorem utf8EncodeChar_ascii {c : Char} (h : c.toNat < 128) :
    String.utf8EncodeChar c = [c.val.toUInt8] := by
  have : c.val ≤ 0x7f := Nat.le_of_lt_succ h
  simp [String.utf8EncodeChar, this]

theorem decodeLatin1_utf8EncodeChar {c : Char} (h : c.toNat < 128) :
    decodeLatin1 (String.utf8EncodeChar c) = [c] := by
  have : (c.val.toUInt8).toNat = c.toNat := by
    simp only [Char.toNat] at h ⊢
    simp [UInt32.toUInt8, UInt8.toNat, UInt8.ofNat, Fin.ofNat]
    omega
  simp [utf8EncodeChar_ascii h, decodeLatin1, this, Char.ofNat_toNat]

/-- Reading the bytes of an ASCII text one by one gives the text back. -/
theorem decodeLatin1_encodeUtf8 {s : List Char} (h : ∀ c ∈ s, c.toNat < 128) :
    decodeLatin1 (encodeUtf8 s) = s := by
  induction s with
  | nil => rfl
  | cons c s ih =>
    rw [List.forall_mem_cons] at h
    rw [encodeUtf8_cons, decodeLatin1_append, decodeLatin1_utf8EncodeChar h.1, ih h.2]
    rfl

theorem length_le_length_encodeUtf8 (s : List Char) : s.length ≤ (encodeUtf8 s).length := by
  induction s with
  | nil => simp
  | cons c s ih =>
    simp only [encodeUtf8_cons, List.length_append, String.length_utf8EncodeChar,
      List.length_cons]
    have := c.utf8Size_pos
    omega

/-- A text has as many bytes as characters iff it is ASCII. -/
theorem length_encodeUtf8_eq_iff {s : List Char} :
    (encodeUtf8 s).length = s.length ↔ ∀ c ∈ s, c.toNat < 128 := by
  induction s with
  | nil => simp
  | cons c s ih =>
    have h₁ := c.utf8Size_pos
    have h₂ := length_le_length_encodeUtf8 s
    rw [List.forall_mem_cons, ← utf8Size_eq_one_iff, ih.symm]
    simp only [encodeUtf8_cons, List.length_append, String.length_utf8EncodeChar,
      List.length_cons]
    omega

/-! ### Length prefixes -/

theorem ascii_toDigits (n : Nat) : ∀ c ∈ Nat.toDigits 10 n, c.toNat < 128 :=
  fun _ hc => toNat_lt_of_isDigit ((toDigits_spec n).2.1 _ hc)

theorem toDigits_inj {a b : Nat} (h : Nat.toDigits 10 a = Nat.toDigits 10 b) : a = b := by
  rw [← (toDigits_spec a).2.2, h, (toDigits_spec b).2.2]

/-- A length prefix ends at the first `:`, so a prefix and what follows it are read apart. -/
theorem toDigits_append_colon_inj {a b : Nat} {r r' : List Char}
    (h : Nat.toDigits 10 a ++ ':' :: r = Nat.toDigits 10 b ++ ':' :: r') : a = b :=
  toDigits_inj (eq_of_append_cons_eq (not_mem_toDigits ':' rfl _) (not_mem_toDigits ':' rfl _) h).1

/-! ### Framing by characters against framing by bytes -/

theorem encodeUtf8_benStr_of_ascii {s : List Char} (h : ∀ c ∈ s, c.toNat < 128) :
    encodeUtf8 (benStr s) = benStrUtf8 s := by
  rw [benStr, benStrUtf8, length_encodeUtf8_eq_iff.mpr h]

/-- A field framed by characters starts the same bytes as the field framed by bytes iff it is
ASCII and the rest agrees: the two prefixes are read back apart from the field, and they are
equal iff the text has as many bytes as characters. -/
theorem encodeUtf8_benStr_append_eq_iff {s : List Char} {t t' : List UInt8} :
    encodeUtf8 (benStr s) ++ t = benStrUtf8 s ++ t' ↔
      (∀ c ∈ s, c.toNat < 128) ∧ t = t' := by
  constructor
  · intro h
    have hs : ∀ c ∈ s, c.toNat < 128 := by
      rw [← length_encodeUtf8_eq_iff]
      have := congrArg decodeLatin1 h
      simp only [benStr, benStrUtf8, encodeUtf8_append, encodeUtf8_cons, decodeLatin1_append,
        decodeLatin1_encodeUtf8 (ascii_toDigits _), decodeLatin1_utf8EncodeChar
        (show ':'.toNat < 128 by decide), List.append_assoc, List.singleton_append] at this
      exact (toDigits_append_colon_inj this).symm
    rw [encodeUtf8_benStr_of_ascii hs, List.append_right_inj] at h
    exact ⟨hs, h⟩
  · rintro ⟨hs, rfl⟩
    rw [encodeUtf8_benStr_of_ascii hs]

theorem encodeUtf8_fields_append_eq_iff {fields : List (List Char × List Char)}
    {t t' : List UInt8} :
    encodeUtf8 (fields.flatMap fun f => benStr f.1 ++ benStr f.2) ++ t =
        (fields.flatMap fun f => benStrUtf8 f.1 ++ benStrUtf8 f.2) ++ t' ↔
      (∀ f ∈ fields, (∀ c ∈ f.1, c.toNat < 128) ∧ ∀ c ∈ f.2, c.toNat < 128) ∧
        t = t' := by
  induction fields with
  | nil => simp
  | cons f fields ih =>
    simp only [List.flatMap_cons, encodeUtf8_append, List.append_assoc,
      encodeUtf8_benStr_append_eq_iff, ih, List.forall_mem_cons, and_assoc]

/-- **Framing by characters is framing by bytes exactly on ASCII fields.** -/
theorem encodeUtf8_benDict_eq_iff (fields : List (List Char × List Char)) :
    encodeUtf8 (benDict fields) = benDictUtf8 fields ↔
      ∀ f ∈ fields, (∀ c ∈ f.1, c.toNat < 128) ∧ ∀ c ∈ f.2, c.toNat < 128 := by
  rw [benDict, benDictUtf8, List.cons_append, ← List.singleton_append, encodeUtf8_append,
    encodeUtf8_append, List.append_assoc, List.append_right_inj,
    encodeUtf8_fields_append_eq_iff, eq_self_iff_true, and_true]

/-- **The builders that write a raw command frame it by bytes exactly when it is ASCII**:
`create_minimal_bencode` and `format_minimal` when the command and the cookie are,
`create_minimal_rtpengine_message`, whose cookie has no prefix, when the command is. -/
theorem minimal_builders_frame_bytes_iff (c m : List Char) :
    (encodeUtf8 (createMinimalBencode c m) =
        benDictUtf8 [("command".toList, m), ("cookie".toList, c)] ↔
      (∀ x ∈ m, x.toNat < 128) ∧ ∀ x ∈ c, x.toNat < 128) ∧
    ((formatMinimal c [("command".toList, m)]).map encodeUtf8 =
        some (benDictUtf8 [("cookie".toList, c), ("command".toList, m)]) ↔
      (∀ x ∈ c, x.toNat < 128) ∧ ∀ x ∈ m, x.toNat < 128) ∧
    (encodeUtf8 (createMinimalRtpengineMessage c m) =
        encodeUtf8 (c ++ [' ']) ++ benDictUtf8 [("command".toList, m)] ↔
      ∀ x ∈ m, x.toNat < 128) := by
  have hcommand : ∀ x ∈ "command".toList, x.toNat < 128 := by decide
  have hcookie : ∀ x ∈ "cookie".toList, x.toNat < 128 := by decide
  refine ⟨?_, ?_, ?_⟩
  · simp [createMinimalBencode, encodeUtf8_benDict_eq_iff, hcommand, hcookie]
  · simp [formatMinimal, encodeUtf8_benDict_eq_iff, hcommand, hcookie]
  · rw [createMinimalRtpengineMessage, ← List.singleton_append, ← List.append_assoc,
      encodeUtf8_append, List.append_right_inj, encodeUtf8_benDict_eq_iff]
    simp [hcommand]

/-- The builders at the command `é`, one character and two bytes: each frames it as one, so
the bytes sent are not the dictionary framed by bytes, and a byte-level reading takes the
first byte of `é` for the command and fails at the second. -/
theorem minimal_builders_count_code_points :
    encodeUtf8 (createMinimalBencode "c".toList "é".toList) ≠
        benDictUtf8 [("command".toList, "é".toList), ("cookie".toList, "c".toList)] ∧
      (formatMinimal "c".toList [("command".toList, "é".toList)]).map encodeUtf8 ≠
        some (benDictUtf8 [("cookie".toList, "c".toList), ("command".toList, "é".toList)]) ∧
      encodeUtf8 (createMinimalRtpengineMessage "c".toList "é".toList) ≠
        encodeUtf8 "c ".toList ++ benDictUtf8 [("command".toList, "é".toList)] ∧
      parseBencode UnicodeDb.latin1
          (decodeLatin1 (encodeUtf8 (createMinimalBencode "c".toList "é".toList))) =
        some (.str "Parse error: Unknown bencode type: ©".toList) :=
  ⟨by decide, by decide, by decide, rfl⟩

/-! ### Reading the bytes back -/

theorem decodeLatin1_benStrUtf8 (s : List Char) :
    decodeLatin1 (benStrUtf8 s) = benStr (decodeLatin1 (encodeUtf8 s)) := by
  rw [benStrUtf8, benStr, encodeUtf8_append, decodeLatin1_append,
    decodeLatin1_encodeUtf8 (ascii_toDigits _), length_decodeLatin1, encodeUtf8_cons,
    decodeLatin1_append, decodeLatin1_utf8EncodeChar (by decide)]
  rfl

theorem decodeLatin1_flatMap {α : Type} (l : List α) (g : α → List UInt8) :
    decodeLatin1 (l.flatMap g) = l.flatMap fun a => decodeLatin1 (g a) :=
  List.map_flatMap _ _ _

/-- Read byte by byte, a dictionary framed by bytes is the dictionary of the fields' bytes
framed as the scripts frame text. -/
theorem decodeLatin1_benDictUtf8 (fields : List (List Char × List Char)) :
    decodeLatin1 (benDictUtf8 fields) = benDict (fields.map fun f =>
      (decodeLatin1 (encodeUtf8 f.1), decodeLatin1 (encodeUtf8 f.2))) := by
  simp only [benDictUtf8, benDict, decodeLatin1_append, decodeLatin1_flatMap,
    decodeLatin1_benStrUtf8, List.flatMap_map]
  rfl

/-- **Framing by bytes is read back at byte level**: for every fields, whatever characters they
hold, `parse_bencode` over the bytes read one by one gives the dictionary of the fields'
bytes. -/
theorem parseBencode_decodeLatin1_benDictUtf8 (u : UnicodeDb)
    (fields : List (List Char × List Char)) :
    parseBencode u (decodeLatin1 (benDictUtf8 fields)) =
      some (.dict (Dict.update [] (fields.map fun f =>
        strField (decodeLatin1 (encodeUtf8 f.1), decodeLatin1 (encodeUtf8 f.2))))) := by
  rw [decodeLatin1_benDictUtf8, parseBencode_benDict, List.map_map]
  rfl

/-- `create_ping_command` frames its one field by bytes. -/
example : createPingCommand =
    benDictUtf8 [("command".toList, "\x7b\"command\":\"ping\"\x7d".toList)] := by
  decide

end NgBencode
