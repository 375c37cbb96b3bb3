import NgBencode.Parse
import NgBencode.Grammar

/-!
# What `parse_bencode` accepts, and that it stops

Every success of the parser is a derivation of the grammar with the numerals `int` reads
(`parse_sound`): what `parse_value` consumed from `pos` to the position it returns is a word,
and each loop consumed pairs or items and the closing `e`. A word is never empty, so every
successful call moves the position strictly forward (`parseValue_pos_lt`), and from that the
fuel `parse_bencode` gives is always enough (`parse_fuel_enough`).

## Main results

* `parse_sound`: one induction on fuel carries the three functions at once.
* `parseValue_pos_lt`: a successful `parse_value` returns a later position.
* `parseBencode_terminates`: with enough fuel `parse_value` never runs out, and
  `parse_bencode` returns on every text.
-/

namespace NgBencode

variable {u : UnicodeDb} {data : List Char}

/-! ### The branches that do not recurse -/

theorem parseInteger_sound {pos pos' : Nat} {v : PyVal}
    (h : parseInteger u data pos = .ok (v, pos')) :
    ∃ n k, data.drop pos = n ++ 'e' :: data.drop pos' ∧ (Numerals.python u).int n k ∧
      v = .int k := by
  unfold parseInteger at h
  split at h
  · cases h
  · next endIdx hf =>
    obtain ⟨result, hr, he⟩ := Outcome.bind_eq_ok.mp h
    cases he
    obtain ⟨-, hd, hn⟩ := drop_eq_of_find hf
    exact ⟨_, result, hd, ⟨hn, hr⟩, rfl⟩

theorem parseString_sound {pos pos' : Nat} {c : Char} {rest : List Char} {v : PyVal}
    (hc : data.drop pos = c :: rest) (hd : isdigit u c = true)
    (h : parseString u data pos = .ok (v, pos')) :
    ∃ n w k, data.drop pos = n ++ ':' :: (w ++ data.drop pos') ∧ (Numerals.python u).str n k ∧
      w.length = k ∧ v = .str w := by
  unfold parseString at h
  split at h
  · cases h
  · next colon hf =>
    obtain ⟨length, hl, h⟩ := Outcome.bind_eq_ok.mp h
    split at h
    · cases h
    · next hle =>
      cases h
      obtain ⟨-, hdrop, hn⟩ := drop_eq_of_find hf
      obtain ⟨r, hr⟩ :=
        slice_eq_cons_of_find hc (show c ≠ ':' from ne_of_isdigit hd (by decide) rfl) hf
      have hnn : 0 ≤ length := int_nonneg_of_isdigit hd (hr ▸ hl)
      have hfit : colon + 1 + length.toNat ≤ data.length := by omega
      refine ⟨slice data pos colon, slice data (colon + 1) (colon + 1 + length.toNat),
        length.toNat, ?_, ⟨⟨c, r, hr, hd⟩, hn, by rw [Int.toNat_of_nonneg hnn, hl]⟩,
        length_slice hfit, rfl⟩
      rw [hdrop, ← drop_eq_slice_append]

theorem parseInteger_ne_outOfFuel (pos : Nat) : parseInteger u data pos ≠ .outOfFuel := by
  unfold parseInteger
  split
  · simp
  · exact Outcome.bind_ne_outOfFuel (int_ne_outOfFuel _ _) fun _ _ => by simp

theorem parseString_ne_outOfFuel (pos : Nat) : parseString u data pos ≠ .outOfFuel := by
  unfold parseString
  split
  · simp
  · exact Outcome.bind_ne_outOfFuel (int_ne_outOfFuel _ _) fun _ _ => by split <;> simp

/-! ### Soundness -/

/-- **Soundness.** What each of the three functions consumed is a word of its nonterminal, with
the value it returns: a value for `parseValue`, and for the loops the pairs or items they read
and the closing `e`, the dictionary's entries set over `acc` in order and the list's items
appended to it. -/
theorem parse_sound (fuel : Nat) :
    (∀ pos v pos', parseValue u fuel data pos = .ok (v, pos') →
      Derive (Numerals.python u) .value (data.drop pos) v (data.drop pos')) ∧
    (∀ pos acc v pos', parseDict u fuel data pos acc = .ok (v, pos') →
      ∃ es, Derive (Numerals.python u) .pairs (data.drop pos) (.dict es) (data.drop pos') ∧
        v = .dict (Dict.update acc es)) ∧
    (∀ pos acc v pos', parseList u fuel data pos acc = .ok (v, pos') →
      ∃ vs, Derive (Numerals.python u) .items (data.drop pos) (.list vs) (data.drop pos') ∧
        v = .list (acc ++ vs)) := by
  induction fuel with
  | zero => refine ⟨fun _ _ _ h => ?_, fun _ _ _ _ h => ?_, fun _ _ _ _ h => ?_⟩ <;> cases h
  | succ fuel ih =>
    obtain ⟨ihv, ihd, ihl⟩ := ih
    refine ⟨fun pos v pos' h => ?_, fun pos acc v pos' h => ?_, fun pos acc v pos' h => ?_⟩
    · rw [parseValue] at h
      cases hc : data[pos]? with
      | none => simp [hc] at h
      | some c =>
        have hdrop := drop_eq_cons_of_getElem? hc
        simp only [hc] at h
        split_ifs at h with h₁ h₂ h₃ h₄
        · obtain ⟨es, hes, rfl⟩ := ihd _ _ _ _ h
          rw [hdrop, h₁]
          exact .dict hes
        · obtain ⟨vs, hvs, rfl⟩ := ihl _ _ _ _ h
          rw [hdrop, h₂]
          exact .list hvs
        · obtain ⟨n, k, hn, hk, rfl⟩ := parseInteger_sound h
          rw [hdrop, h₃, hn]
          exact .int hk
        · obtain ⟨n, w, k, hn, hk, hw, rfl⟩ := parseString_sound hdrop h₄ h
          rw [hn]
          exact .str hk hw
    · rw [parseDict] at h
      cases hc : data[pos]? with
      | none => simp [hc] at h
      | some c =>
        have hdrop := drop_eq_cons_of_getElem? hc
        simp only [hc] at h
        split_ifs at h with he
        · cases h
          refine ⟨[], ?_, rfl⟩
          rw [hdrop, he]
          exact .pairsEnd
        · obtain ⟨⟨key, pos₁⟩, h₁, h⟩ := Outcome.bind_eq_ok.mp h
          cases key with
          | str k =>
            obtain ⟨⟨value, pos₂⟩, h₂, h⟩ := Outcome.bind_eq_ok.mp h
            obtain ⟨es, hes, rfl⟩ := ihd _ _ _ _ h
            exact ⟨(k, value) :: es, .pairsCons (ihv _ _ _ h₁) (ihv _ _ _ h₂) hes, rfl⟩
          | int | list | dict => cases h
    · rw [parseList] at h
      cases hc : data[pos]? with
      | none => simp [hc] at h
      | some c =>
        have hdrop := drop_eq_cons_of_getElem? hc
        simp only [hc] at h
        split_ifs at h with he
        · cases h
          refine ⟨[], ?_, by simp⟩
          rw [hdrop, he]
          exact .itemsEnd
        · obtain ⟨⟨item, pos₁⟩, h₁, h⟩ := Outcome.bind_eq_ok.mp h
          obtain ⟨vs, hvs, rfl⟩ := ihl _ _ _ _ h
          exact ⟨item :: vs, .itemsCons (ihv _ _ _ h₁) hvs, by simp⟩

/-- **Progress.** A successful `parse_value` returns a position past the one it started from:
what it consumed is a nonempty word. -/
theorem parseValue_pos_lt {fuel pos pos' : Nat} {v : PyVal}
    (h : parseValue u fuel data pos = .ok (v, pos')) : pos < pos' ∧ pos < data.length := by
  have hs := ((parse_sound fuel).1 pos v pos' h).suffix.2
  simp only [List.length_drop] at hs
  omega

/-! ### Fuel -/

/-- **Adequacy of the fuel.** `parseValue` does not run out with more than twice the characters
left, nor the loops with one more: every call spends one unit and consumes at least one
character, and a loop step spends at most two units on its key and value. -/
theorem parse_fuel_enough (fuel : Nat) :
    (∀ pos, 2 * (data.length - pos) < fuel → parseValue u fuel data pos ≠ .outOfFuel) ∧
    (∀ pos acc, 2 * (data.length - pos) + 1 < fuel →
      parseDict u fuel data pos acc ≠ .outOfFuel) ∧
    (∀ pos acc, 2 * (data.length - pos) + 1 < fuel →
      parseList u fuel data pos acc ≠ .outOfFuel) := by
  induction fuel with
  | zero => simp
  | succ fuel ih =>
    obtain ⟨ihv, ihd, ihl⟩ := ih
    refine ⟨fun pos hf => ?_, fun pos acc hf => ?_, fun pos acc hf => ?_⟩
    · rw [parseValue]
      cases hc : data[pos]? with
      | none => simp
      | some c =>
        have hlt : pos < data.length := (List.getElem?_eq_some_iff.mp hc).1
        simp only
        split_ifs
        · exact ihd _ _ (by omega)
        · exact ihl _ _ (by omega)
        · exact parseInteger_ne_outOfFuel _
        · exact parseString_ne_outOfFuel _
        · simp
    · rw [parseDict]
      cases hc : data[pos]? with
      | none => simp
      | some c =>
        simp only
        split_ifs
        · simp
        · refine Outcome.bind_ne_outOfFuel (ihv _ (by omega)) fun ⟨key, pos₁⟩ h₁ => ?_
          have hp₁ := parseValue_pos_lt h₁
          cases key with
          | str k =>
            refine Outcome.bind_ne_outOfFuel (ihv _ (by omega)) fun ⟨value, pos₂⟩ h₂ => ?_
            have hp₂ := parseValue_pos_lt h₂
            exact ihd _ _ (by omega)
          | int | list | dict => simp
    · rw [parseList]
      cases hc : data[pos]? with
      | none => simp
      | some c =>
        simp only
        split_ifs
        · simp
        · refine Outcome.bind_ne_outOfFuel (ihv _ (by omega)) fun ⟨item, pos₁⟩ h₁ => ?_
          have hp₁ := parseValue_pos_lt h₁
          exact ihl _ _ (by omega)

/-- `innerParse` never runs out of fuel. -/
theorem innerParse_ne_outOfFuel (u : UnicodeDb) (data : List Char) :
    innerParse u data ≠ .outOfFuel := by
  unfold innerParse
  refine Outcome.bind_ne_outOfFuel ((parse_fuel_enough _).1 0 (by unfold fuelFor; omega))
    fun ⟨_, _⟩ _ => ?_
  dsimp only
  split_ifs <;> simp

/-- **`parse_bencode` terminates on every text.** Every successful `parse_value` moves the
position strictly forward, so with more fuel than twice the characters left it never runs out,
and `parse_bencode` returns, a value or a `"Parse error: ..."` text, on every input. -/
theorem parseBencode_terminates (u : UnicodeDb) (data : List Char) :
    (∀ fuel pos v pos', parseValue u fuel data pos = .ok (v, pos') → pos < pos') ∧
    (∀ fuel pos, 2 * (data.length - pos) < fuel → parseValue u fuel data pos ≠ .outOfFuel) ∧
    (parseBencode u data).isSome := by
  refine ⟨fun _ _ _ _ h => (parseValue_pos_lt h).1, fun fuel => (parse_fuel_enough fuel).1, ?_⟩
  unfold parseBencode
  have := innerParse_ne_outOfFuel u data
  split <;> simp_all

end NgBencode
