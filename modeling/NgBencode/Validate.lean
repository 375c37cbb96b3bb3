import NgBencode.Completeness

/-!
# `validate_bencode_structure`

`test-bencode-basic.py` checks each payload with `validate_bencode_structure` before sending
it, outside the `try` around the send. The check wants a `d` first and an `e` last, and walks
the top-level pairs: at a key's first digit it reads the length up to the next `:` with `int`
and steps over the key; when the value also starts with a digit, it reads that length too and
steps over the value. At anything else it stops with `True`.

The `while` loop is `validateLoop`, on a fuel that bounds its iterations. The two length
readings, the same code in the source, are `lengthEnd`. The checks after them differ: a key
must end before the last character (`key_end >= len` fails), a value may end at the very end
(`val_end > len` fails). Those checks stay in the loop.

## Main results

* `lengthEnd_of_parseString`: wherever `parse_value` reads a string, the check reads the
  same colon and length and ends at the same position.
* `validateLoop_of_pairs`: from the pairs of a dictionary that runs to the end of the text,
  the loop reads each key's and each string value's length where `parse_value` reads them,
  and returns `True`.
* `validateBencodeStructure_of_parseBencode`: the check returns `True` on every text that
  `parse_bencode` reads as a dict.
* `validateBencodeStructure_total`: the loop always stops, and the only exception the check
  raises is the one `int` raises on a slice of the text. A malformed length raises it
  (`validateBencodeStructure_raises_on_malformed_length`).
-/

namespace NgBencode

variable (u : UnicodeDb)

/-- The length read at index `i` of a key or a value: `colon_pos = s.find(':', i)`, then
`int(s[i:colon_pos])`, and the index just past the string, `colon_pos + 1 + length`. It is
`none` where the source returns `False` because no `:` follows. -/
def lengthEnd (s : List Char) (i : Nat) : Outcome (Option Int) :=
  match find s ':' i with
  | none => .ok none
  | some colonPos => do
    let len ← int u (slice s i colonPos)
    .ok (some (((colonPos + 1 : Nat) : Int) + len))

/-- The `while` loop of `validate_bencode_structure`, from index `i`. -/
def validateLoop (s : List Char) : Nat → Nat → Outcome Bool
  | 0, _ => .outOfFuel
  | fuel + 1, i =>
    if h : i + 1 < s.length then
      if isdigit u s[i] then do
        match ← lengthEnd u s i with
        | none => .ok false
        | some keyEnd =>
          if keyEnd ≥ s.length then .ok false
          else
            let i := keyEnd.toNat
            if h' : i + 1 ≥ s.length then .ok true
            else if isdigit u s[i] then do
              match ← lengthEnd u s i with
              | none => .ok false
              | some valEnd =>
                if valEnd > s.length then .ok false
                else validateLoop s fuel valEnd.toNat
            else .ok true
      else .ok true
    else .ok true

/-- `validate_bencode_structure(bencode_str)`. The fuel, the length of the text, is more than
the loop's iterations (`validateLoop_ne_outOfFuel`). -/
def validateBencodeStructure (bencodeStr : List Char) : Outcome Bool :=
  if bencodeStr.head? ≠ some 'd' then .ok false
  else if bencodeStr.getLast? ≠ some 'e' then .ok false
  else validateLoop u bencodeStr bencodeStr.length 1

variable {u} {data : List Char}

/-! ### Reading a length -/

theorem lengthEnd_ne_outOfFuel (i : Nat) : lengthEnd u data i ≠ .outOfFuel := by
  unfold lengthEnd
  split
  · simp
  · exact Outcome.bind_ne_outOfFuel (int_ne_outOfFuel _ _) fun _ _ => by simp

theorem lengthEnd_raise {i : Nat} {msg : String} (h : lengthEnd u data i = .raise msg) :
    ∃ j, find data ':' i = some j ∧ int u (slice data i j) = .raise msg := by
  unfold lengthEnd at h
  split at h
  · cases h
  · next j hj =>
    rcases Outcome.bind_eq_raise h with h | ⟨_, -, h⟩
    · exact ⟨j, hj, h⟩
    · cases h

/-- **Progress.** A length read at a digit ends past the digit: the text read starts with a
digit, so `int` gives a number that is not negative. -/
theorem lt_of_lengthEnd {i : Nat} {e : Int} (hi : i < data.length)
    (hd : isdigit u data[i] = true) (h : lengthEnd u data i = .ok (some e)) : (i : Int) < e := by
  unfold lengthEnd at h
  split at h
  · cases h
  · next colon hf =>
    obtain ⟨len, hl, h⟩ := Outcome.bind_eq_ok.mp h
    cases h
    obtain ⟨hle, -, -⟩ := drop_eq_of_find hf
    obtain ⟨r, hr⟩ := slice_eq_cons_of_find (List.drop_eq_getElem_cons hi)
      (show data[i] ≠ ':' from ne_of_isdigit hd (by decide) rfl) hf
    have := int_nonneg_of_isdigit hd (hr ▸ hl)
    omega

/-- **The check reads a length where the parser does.** At a digit, where `parse_value` turns
to its string branch, `lengthEnd` finds the colon `parseString` finds, reads the same length
with `int`, and ends where the string the parser returns ends. -/
theorem lengthEnd_of_parseString {pos e : Nat} {v : PyVal} (hpos : pos < data.length)
    (hd : isdigit u data[pos] = true) (h : parseString u data pos = .ok (v, e)) :
    lengthEnd u data pos = .ok (some e) := by
  unfold parseString at h
  split at h
  · cases h
  · next colon hf =>
    obtain ⟨len, hl, h⟩ := Outcome.bind_eq_ok.mp h
    split_ifs at h
    cases h
    obtain ⟨r, hr⟩ := slice_eq_cons_of_find (List.drop_eq_getElem_cons hpos)
      (show data[pos] ≠ ':' from ne_of_isdigit hd (by decide) rfl) hf
    have := int_nonneg_of_isdigit hd (hr ▸ hl)
    simp only [lengthEnd, hf, hl, Outcome.ok_bind]
    congr 2
    omega

/-- At the start of a string word, the check reads the length `parse_value` reads, and ends
where the word does. -/
theorem lengthEnd_of_str {n w t : List Char} {k : Nat} (hs : n ++ ':' :: (w ++ t) <:+ data)
    (hn : (Numerals.python u).str n k) (hw : w.length = k) :
    lengthEnd u data (data.length - (n ++ ':' :: (w ++ t)).length) =
      .ok (some (data.length - t.length : Nat)) := by
  obtain ⟨c, r, rfl, hc⟩ := hn.1
  have hd := (drop_of_suffix hs).trans (List.cons_append _ _ _)
  have hlen := hs.length_le
  simp only [List.cons_append, List.length_cons, List.length_append] at hlen hd ⊢
  exact lengthEnd_of_parseString (by omega) (by rw [getElem_of_drop_eq_cons hd (by omega)]; exact hc)
    (by simpa using parseString_complete hs hn hw)

/-! ### The loop stops, and raises only what `int` raises -/

/-- Every iteration that goes on moves `i` forward, to at most the length of the text, so
more fuel than the characters left is enough. -/
theorem validateLoop_ne_outOfFuel (fuel : Nat) :
    ∀ i, data.length - i < fuel → validateLoop u data fuel i ≠ .outOfFuel := by
  induction fuel with
  | zero => intro i h; omega
  | succ fuel ih =>
    intro i hf
    rw [validateLoop]
    split_ifs with h hd
    · refine Outcome.bind_ne_outOfFuel (lengthEnd_ne_outOfFuel _) fun r hr => ?_
      rcases r with _ | keyEnd
      · simp
      · have hk := lt_of_lengthEnd (by omega) hd hr
        dsimp only
        split_ifs with h₁ h₂ h₃
        · simp
        · simp
        · refine Outcome.bind_ne_outOfFuel (lengthEnd_ne_outOfFuel _) fun r hr => ?_
          rcases r with _ | valEnd
          · simp
          · have hv := lt_of_lengthEnd (by omega) h₃ hr
            dsimp only
            split_ifs with h₄
            · simp
            · exact ih _ (by omega)
        · simp
    · simp
    · simp

theorem validateLoop_raise (fuel : Nat) : ∀ i msg, validateLoop u data fuel i = .raise msg →
    ∃ i j, find data ':' i = some j ∧ int u (slice data i j) = .raise msg := by
  induction fuel with
  | zero => intro i msg h; cases h
  | succ fuel ih =>
    intro i msg h
    rw [validateLoop] at h
    split_ifs at h with h₀ hd
    rcases Outcome.bind_eq_raise h with h | ⟨r, -, h⟩
    · exact ⟨_, lengthEnd_raise h⟩
    rcases r with _ | keyEnd
    · cases h
    dsimp only at h
    split_ifs at h with h₁ h₂ h₃
    rcases Outcome.bind_eq_raise h with h | ⟨r, -, h⟩
    · exact ⟨_, lengthEnd_raise h⟩
    rcases r with _ | valEnd
    · cases h
    dsimp only at h
    split_ifs at h with h₄
    exact ih _ _ h

/-- A digit followed by a letter before the next `:` is a length `int` refuses, and its
`ValueError` leaves the check. -/
theorem validateBencodeStructure_raises_on_malformed_length (u : UnicodeDb) :
    validateBencodeStructure u "d1x:ae".toList =
      .raise "invalid literal for int() with base 10: '1x'" :=
  rfl

/-! ### The check follows the parser's dictionary loop -/

/-- **Simulation.** Started at the pairs of a dictionary that runs to the end of the text, the
loop reads each key's length where `parse_value` reads it and ends where the key does, steps
over a string value as `parse_value` does, and stops with `True` at the closing `e` or at the
first value that is not a string. -/
theorem validateLoop_of_pairs {es : List (List Char × PyVal)} :
    ∀ {s : List Char} {fuel : Nat}, s <:+ data →
      Derive (Numerals.python u) .pairs s (.dict es) [] → s.length ≤ fuel →
      validateLoop u data fuel (data.length - s.length) = .ok true := by
  induction es with
  | nil =>
    intro s fuel hs h hf
    cases h
    obtain ⟨fuel, rfl⟩ := Nat.exists_eq_succ_of_ne_zero (show fuel ≠ 0 by simp at hf; omega)
    have := hs.length_le
    simp only [List.length_singleton] at this ⊢
    rw [validateLoop, dif_neg (by omega)]
  | cons e es ih =>
    intro s fuel hs h hf
    cases h with
    | pairsCons hk hv hes =>
    have h₁ := hk.suffix.2
    have hs₁ := hk.suffix.1.trans hs
    have h₂ := hv.suffix
    have h₃ := hes.suffix.2
    have hlen := hs.length_le
    have hlen₁ := hs₁.length_le
    have hdrop := drop_of_suffix hs
    simp only [List.length_nil] at h₃
    obtain ⟨fuel, rfl⟩ := Nat.exists_eq_succ_of_ne_zero (show fuel ≠ 0 by omega)
    generalize hpos : data.length - s.length = pos at hdrop ⊢
    cases hk with
    | str hn hw =>
    -- the key: its length is read where the parser reads it, and it ends before the last `e`
    obtain ⟨c, r, rfl, hc⟩ := hn.1
    rw [List.cons_append] at hdrop
    rw [validateLoop, dif_pos (by omega)]
    simp only [getElem_of_drop_eq_cons hdrop (by omega), hc, if_true]
    rw [← hpos, lengthEnd_of_str hs hn hw]
    simp only [Outcome.ok_bind, Int.toNat_ofNat]
    rw [if_neg (by omega), dif_neg (by omega)]
    -- the value: a string is stepped over, anything else ends the scan
    cases hv with
    | str hn' hw' =>
      obtain ⟨c', r', rfl, hc'⟩ := hn'.1
      have hdrop₁ := (drop_of_suffix hs₁).trans (List.cons_append _ _ _)
      simp only [getElem_of_drop_eq_cons hdrop₁ (by omega), hc', if_true,
        lengthEnd_of_str hs₁ hn' hw', Outcome.ok_bind, Int.toNat_ofNat]
      rw [if_neg (by omega)]
      exact ih (h₂.1.trans hs₁) hes (by omega)
    | int | list | dict =>
      simp only [getElem_of_drop_eq_cons (drop_of_suffix hs₁) (by omega)]
      rfl

/-- **No false alarm.** On every text that `parse_bencode` reads as a dict, the check returns
`True`: the text is a `d`, the pairs, and the closing `e`, and the loop walks the pairs. -/
theorem validateBencodeStructure_of_parseBencode (u : UnicodeDb) (s : List Char) (d : Dict)
    (h : parseBencode u s = some (.dict d)) : validateBencodeStructure u s = .ok true := by
  have hin : innerParse u s = .ok (.dict d) := by
    unfold parseBencode at h
    split at h <;> cases h
    assumption
  obtain ⟨es, s', rfl, hes⟩ :
      ∃ es s', s = 'd' :: s' ∧ Derive (Numerals.python u) .pairs s' (.dict es) [] := by
    cases derive_of_innerParse hin with
    | dict hes => exact ⟨_, _, rfl, hes⟩
  obtain ⟨w, hw⟩ := hes.eq_append_e nofun
  have := validateLoop_of_pairs (List.suffix_cons 'd' s') hes (Nat.le_succ _)
  rw [validateBencodeStructure, if_neg (by simp),
    if_neg (by rw [hw, ← List.cons_append, List.getLast?_concat]; simp)]
  simpa using this

theorem validateBencodeStructure_cookie_command :
    parseBencode UnicodeDb.latin1 "d6:cookie4:test7:command4:pinge".toList =
        some (.dict [("cookie".toList, .str "test".toList),
          ("command".toList, .str "ping".toList)]) ∧
      validateBencodeStructure UnicodeDb.latin1 "d6:cookie4:test7:command4:pinge".toList =
        .ok true :=
  ⟨rfl, validateBencodeStructure_of_parseBencode _ _ _ rfl⟩

end NgBencode
