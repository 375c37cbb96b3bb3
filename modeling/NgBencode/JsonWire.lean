import NgBencode.JsonRoundtrip

/-!
# JSON commands on the wire

Most builders take a command's JSON text, `json.dumps(command, separators=...)`. With
`ensure_ascii` at its default, `json.dumps` escapes every code point past ASCII, so the text
is ASCII whatever the command holds (`ascii_dumpsVal`), given separators and a float text
that are ASCII, as Python's are. A JSON command is therefore framed right by bytes, unlike
the raw commands of `NgBencode.Wire`: `create_rtpengine_message` for every cookie and every
command, and the builders that put the cookie in the dictionary exactly when the cookie is
ASCII (`json_builders_frame_bytes`).

Put together with the decoders, the request path is a round trip
(`createRtpengineMessage_roundtrip`): RTPEngine, reading the bytes of
`create_rtpengine_message(cookie, command)` one by one, splits off the cookie at the first
space, reads the rest with `parse_bencode` as `{"command": text}`, and `json.loads(text)` is the
command.

## Main results

* `ascii_dumpsVal`: `json.dumps` writes ASCII.
* `json_builders_frame_bytes`: the JSON builders frame by bytes, the dictionary builders
  exactly when the cookie is ASCII.
* `createRtpengineMessage_roundtrip`: from the bytes of `create_rtpengine_message`, the cookie,
  the dictionary and the command are read back.
-/

namespace NgBencode

variable {F : Type}

/-! ### `json.dumps` writes ASCII -/

theorem ascii_digitChar : ∀ k : Fin 16, (Nat.digitChar k).toNat < 128 := by decide

theorem ascii_hex4 (n : Nat) : ∀ c ∈ hex4 n, c.toNat < 128 := by
  have h : ∀ m, (Nat.digitChar (m % 16)).toNat < 128 := fun m =>
    ascii_digitChar ⟨m % 16, Nat.mod_lt _ (by decide)⟩
  simp only [hex4, List.forall_mem_cons, List.not_mem_nil, false_imp_iff, implies_true, and_true]
  exact ⟨h _, h _, h _, h _⟩

theorem ascii_escapeChar (c : CodePoint) : ∀ x ∈ escapeChar c, x.toNat < 128 := by
  rcases escapeChar_cases c with ⟨ch, hE, -, -, -, -, h⟩ | ⟨x, hE, -, -, h⟩ | ⟨-, hE⟩ | ⟨-, hE⟩ <;>
    rw [hE]
  · simpa using h
  · simpa using h
  · simpa using ascii_hex4 _
  · simp only [List.cons_append, List.forall_mem_cons, List.forall_mem_append]
    exact ⟨by decide, by decide, ascii_hex4 _, by decide, by decide, ascii_hex4 _⟩

theorem ascii_encodeBasestringAscii (s : List CodePoint) :
    ∀ x ∈ encodeBasestringAscii s, x.toNat < 128 := by
  simp only [encodeBasestringAscii, List.cons_append, List.forall_mem_cons,
    List.forall_mem_append, List.forall_mem_flatMap]
  exact ⟨by decide, fun c _ => ascii_escapeChar c, by decide⟩

theorem ascii_intRepr (n : Int) : ∀ x ∈ intRepr n, x.toNat < 128 := by
  unfold intRepr
  split_ifs
  · simpa using ascii_toDigits _
  · exact ascii_toDigits _

section Dumps

variable {floatstr : F → List Char} {itemSep keySep : List Char}

mutual

/-- Every character `json.dumps` writes is ASCII when the separators and the text of every
float are. -/
theorem ascii_dumpsVal (hf : ∀ x, ∀ c ∈ floatstr x, c.toNat < 128)
    (hi : ∀ c ∈ itemSep, c.toNat < 128) (hk : ∀ c ∈ keySep, c.toNat < 128) :
    (v : JsonVal F) → ∀ c ∈ dumpsVal floatstr itemSep keySep v, c.toNat < 128
  | .null | .bool true | .bool false | .array [] | .object [] => by simp only [dumpsVal]; decide
  | .int n => ascii_intRepr n
  | .float x => hf x
  | .str s => ascii_encodeBasestringAscii s
  | .array (v :: vs) => by
    simp only [dumpsVal, List.append_assoc, List.cons_append, List.forall_mem_cons,
      List.forall_mem_append, List.forall_mem_singleton]
    exact ⟨by decide, ascii_dumpsVal hf hi hk v, ascii_dumpsItems hf hi hk vs, by decide⟩
  | .object ((k, v) :: fs) => by
    simp only [dumpsVal, List.append_assoc, List.cons_append, List.forall_mem_cons,
      List.forall_mem_append, List.forall_mem_singleton]
    exact ⟨by decide, ascii_encodeBasestringAscii k, hk, ascii_dumpsVal hf hi hk v,
      ascii_dumpsFields hf hi hk fs, by decide⟩

theorem ascii_dumpsItems (hf : ∀ x, ∀ c ∈ floatstr x, c.toNat < 128)
    (hi : ∀ c ∈ itemSep, c.toNat < 128) (hk : ∀ c ∈ keySep, c.toNat < 128) :
    (vs : List (JsonVal F)) → ∀ c ∈ dumpsItems floatstr itemSep keySep vs, c.toNat < 128
  | [] => by simp [dumpsItems]
  | v :: vs => by
    simp only [dumpsItems, List.append_assoc, List.forall_mem_append]
    exact ⟨hi, ascii_dumpsVal hf hi hk v, ascii_dumpsItems hf hi hk vs⟩

theorem ascii_dumpsFields (hf : ∀ x, ∀ c ∈ floatstr x, c.toNat < 128)
    (hi : ∀ c ∈ itemSep, c.toNat < 128) (hk : ∀ c ∈ keySep, c.toNat < 128) :
    (fs : List (List CodePoint × JsonVal F)) →
      ∀ c ∈ dumpsFields floatstr itemSep keySep fs, c.toNat < 128
  | [] => by simp [dumpsFields]
  | (k, v) :: fs => by
    simp only [dumpsFields, List.append_assoc, List.forall_mem_append]
    exact ⟨hi, ascii_encodeBasestringAscii k, hk, ascii_dumpsVal hf hi hk v,
      ascii_dumpsFields hf hi hk fs⟩

end

end Dumps

/-! ### The JSON builders on the wire -/

theorem SepOk.ascii {c : Char} {sep : List Char} (h : SepOk c sep) (hc : c.toNat < 128) :
    ∀ x ∈ sep, x.toNat < 128 := by
  obtain ⟨w₁, w₂, rfl, hw⟩ := h
  have hws : ∀ x, isJsonWhitespace x = true → x.toNat < 128 := fun x hx => by
    simp only [isJsonWhitespace, Bool.or_eq_true, decide_eq_true_eq] at hx
    rcases hx with ((rfl | rfl) | rfl) | rfl <;> decide
  intro x hx
  simp only [List.mem_append, List.mem_cons] at hx
  rcases hx with hx | rfl | hx
  · exact hws x (hw x (by simp [hx]))
  · exact hc
  · exact hws x (hw x (by simp [hx]))

/-- An ASCII character a text does not hold is not among its bytes read one by one: the bytes
of a character past ASCII are all at least `0x80`. -/
theorem not_mem_decodeLatin1_encodeUtf8 {a : Char} (ha : a.toNat < 128) {s : List Char}
    (h : a ∉ s) : a ∉ decodeLatin1 (encodeUtf8 s) := by
  induction s with
  | nil => exact List.not_mem_nil a
  | cons c s ih =>
    rw [List.mem_cons, not_or] at h
    rw [encodeUtf8_cons, decodeLatin1_append, List.mem_append, not_or]
    refine ⟨fun hm => ?_, ih h.2⟩
    by_cases hc : c.toNat < 128
    · rw [decodeLatin1_utf8EncodeChar hc, List.mem_singleton] at hm
      exact h.1 hm
    · obtain ⟨b, hb, rfl⟩ := List.mem_map.mp hm
      have h80 := le_toNat_of_mem_utf8EncodeChar (by omega) hb
      have h256 : b.toNat < 256 := UInt8.toNat_lt_size b
      have := toNat_ofNat_of_valid (n := b.toNat) (by omega)
      omega

variable {floatstr : F → List Char} {itemSep keySep : List Char}

/-- **The builders that write a command's JSON frame it right by bytes.** `json.dumps`
writes ASCII, so `create_rtpengine_message`, whose cookie stands before the dictionary, is the
dictionary framed by bytes for every cookie and every command `json.dumps` writes, and the
builders that put the cookie in the dictionary are exactly when the cookie is ASCII. The
command fits Python's limits (`_hv`), without which `json.dumps` raises and nothing is sent;
the model writes every value, so the proof does not need it. -/
theorem json_builders_frame_bytes (hf : ∀ x, ∀ c ∈ floatstr x, c.toNat < 128)
    (hi : ∀ c ∈ itemSep, c.toNat < 128) (hk : ∀ c ∈ keySep, c.toNat < 128)
    (c : List Char) (v : JsonVal F) (_hv : v.fits maxNesting) :
    encodeUtf8 (createRtpengineMessage c (jsonDumps floatstr itemSep keySep v)) =
        encodeUtf8 (c ++ [' ']) ++
          benDictUtf8 [("command".toList, jsonDumps floatstr itemSep keySep v)] ∧
      (encodeUtf8 (formatStandardNg c (jsonDumps floatstr itemSep keySep v)) =
          benDictUtf8 [("cookie".toList, c),
            ("command".toList, jsonDumps floatstr itemSep keySep v)] ↔
        ∀ x ∈ c, x.toNat < 128) ∧
      (encodeUtf8 (formatKamailioStyle c (jsonDumps floatstr itemSep keySep v)) =
          benDictUtf8 [("cookie".toList, c),
            ("command".toList, jsonDumps floatstr itemSep keySep v)] ↔
        ∀ x ∈ c, x.toNat < 128) ∧
      (encodeUtf8 (createBencodeCommand c (jsonDumps floatstr itemSep keySep v)) =
          benDictUtf8 [("cookie".toList, c),
            ("command".toList, jsonDumps floatstr itemSep keySep v)] ↔
        ∀ x ∈ c, x.toNat < 128) ∧
      (encodeUtf8 (formatOpensipsStyle c (jsonDumps floatstr itemSep keySep v)) =
          benDictUtf8 [("command".toList, jsonDumps floatstr itemSep keySep v),
            ("cookie".toList, c)] ↔
        ∀ x ∈ c, x.toNat < 128) ∧
      (encodeUtf8 (createProperBencode c (jsonDumps floatstr itemSep keySep v)) =
          benDictUtf8 [("command".toList, jsonDumps floatstr itemSep keySep v),
            ("cookie".toList, c)] ↔
        ∀ x ∈ c, x.toNat < 128) := by
  have hm := ascii_dumpsVal hf hi hk v
  have hcommand : ∀ x ∈ "command".toList, x.toNat < 128 := by decide
  have hcookie : ∀ x ∈ "cookie".toList, x.toNat < 128 := by decide
  refine ⟨?_, ?_, ?_, ?_, ?_, ?_⟩
  · rw [createRtpengineMessage, ← List.singleton_append, ← List.append_assoc, encodeUtf8_append,
      (encodeUtf8_benDict_eq_iff _).mpr (by simpa [hcommand] using hm)]
  all_goals
    simp only [formatStandardNg, formatKamailioStyle, createBencodeCommand, formatOpensipsStyle,
      createProperBencode, encodeUtf8_benDict_eq_iff, List.forall_mem_cons, List.not_mem_nil,
      false_imp_iff, implies_true,
      iff_true_intro hcommand, iff_true_intro hcookie, jsonDumps, iff_true_intro hm, true_and,
      and_true]

/-- The JSON ping of `test_correct_rtpengine_format`, with the separators `(',', ':')`. -/
theorem json_builders_frame_bytes_ping :
    (∀ x : Unit, ∀ c ∈ (fun _ : Unit => ([] : List Char)) x, c.toNat < 128) ∧
      (∀ c ∈ [','], c.toNat < 128) ∧ (∀ c ∈ [':'], c.toNat < 128) ∧
      (pingCommand : JsonVal Unit).fits maxNesting ∧
      encodeUtf8 (createRtpengineMessage "test".toList
          (jsonDumps (fun _ : Unit => []) [','] [':'] pingCommand)) =
        encodeUtf8 ("test".toList ++ [' ']) ++ benDictUtf8 [("command".toList,
          jsonDumps (fun _ : Unit => []) [','] [':'] pingCommand)] :=
  ⟨(fun _ _ h => by cases h), by decide, by decide, by decide,
    (json_builders_frame_bytes (fun _ _ h => by cases h) (by decide) (by decide) _ _
      (by decide)).1⟩

/-- **RTPEngine reads back the command `create_rtpengine_message` sends.** Its bytes, read one
by one, split at the first space into the cookie's bytes and a text that `parse_bencode` reads
as `{"command": m}`, and `json.loads(m)` is the command value, for every cookie without a space
and every plain command value within Python's limits, where `json.dumps` and `json.loads` do
not raise. -/
theorem createRtpengineMessage_roundtrip (u : UnicodeDb) (parseFloat : List Char → F)
    (hf : ∀ x, ∀ c ∈ floatstr x, c.toNat < 128) (hi : SepOk ',' itemSep) (hk : SepOk ':' keySep)
    {c : List Char} (hc : ' ' ∉ c) {v : JsonVal F} (hv : v.isPlain ∧ v.fits maxNesting) :
    ∃ rest, splitOnce ' ' (decodeLatin1 (encodeUtf8
        (createRtpengineMessage c (jsonDumps floatstr itemSep keySep v)))) =
        [decodeLatin1 (encodeUtf8 c), rest] ∧
      parseBencode u rest =
        some (.dict [("command".toList, .str (jsonDumps floatstr itemSep keySep v))]) ∧
      jsonLoads parseFloat (jsonDumps floatstr itemSep keySep v) = .ok v := by
  have hm : ∀ x ∈ jsonDumps floatstr itemSep keySep v, x.toNat < 128 :=
    ascii_dumpsVal hf (hi.ascii (by decide)) (hk.ascii (by decide)) v
  have hcommand : ∀ x ∈ "command".toList, x.toNat < 128 := by decide
  -- the dictionary is ASCII, so its bytes read one by one are itself
  have hd : decodeLatin1 (encodeUtf8 (benDict [("command".toList,
      jsonDumps floatstr itemSep keySep v)])) =
      benDict [("command".toList, jsonDumps floatstr itemSep keySep v)] := by
    rw [(encodeUtf8_benDict_eq_iff _).mpr (by simpa [iff_true_intro hcommand] using hm),
      decodeLatin1_benDictUtf8]
    simp only [List.map_cons, List.map_nil, decodeLatin1_encodeUtf8 hm,
      decodeLatin1_encodeUtf8 hcommand]
  refine ⟨benDict [("command".toList, jsonDumps floatstr itemSep keySep v)], ?_,
    by rw [parseBencode_benDict]; rfl,
    jsonLoads_jsonDumps parseFloat floatstr hi hk v hv.1⟩
  rw [createRtpengineMessage, encodeUtf8_append, encodeUtf8_cons, decodeLatin1_append,
    decodeLatin1_append, decodeLatin1_utf8EncodeChar (by decide), hd, List.singleton_append]
  exact splitOnce_append_cons (not_mem_decodeLatin1_encodeUtf8 (by decide) hc)

/-- The JSON ping of `test_correct_rtpengine_format`, sent with the cookie `test`. -/
theorem createRtpengineMessage_roundtrip_ping :
    (∀ x : Unit, ∀ c ∈ (fun _ : Unit => ([] : List Char)) x, c.toNat < 128) ∧
      SepOk ',' [','] ∧ SepOk ':' [':'] ∧ ' ' ∉ "test".toList ∧
      ((pingCommand : JsonVal Unit).isPlain ∧ (pingCommand : JsonVal Unit).fits maxNesting) ∧
      ∃ rest, splitOnce ' ' (decodeLatin1 (encodeUtf8 (createRtpengineMessage "test".toList
          (jsonDumps (fun _ : Unit => []) [','] [':'] pingCommand)))) =
          [decodeLatin1 (encodeUtf8 "test".toList), rest] ∧
        parseBencode UnicodeDb.latin1 rest = some (.dict [("command".toList,
          .str (jsonDumps (fun _ : Unit => []) [','] [':'] pingCommand))]) ∧
        jsonLoads (fun _ => ()) (jsonDumps (fun _ : Unit => []) [','] [':'] pingCommand) =
          .ok pingCommand :=
  have hf : ∀ x : Unit, ∀ c ∈ (fun _ : Unit => ([] : List Char)) x, c.toNat < 128 :=
    fun _ _ h => by cases h
  have hi : SepOk ',' [','] := ⟨[], [], rfl, by simp⟩
  have hk : SepOk ':' [':'] := ⟨[], [], rfl, by simp⟩
  ⟨hf, hi, hk, by decide, ⟨by decide, by decide⟩,
    createRtpengineMessage_roundtrip UnicodeDb.latin1 (fun _ => ()) hf hi hk (by decide)
      ⟨by decide, by decide⟩⟩

end NgBencode
