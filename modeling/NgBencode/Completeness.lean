import NgBencode.Soundness

/-!
# What `parse_bencode` accepts, exactly

The converse of soundness: on text that starts with a word of the grammar (with the numerals
`int` reads), each of the three functions returns that word's value and the position after
it, unless the fuel runs out first (`parse_complete`). With the fuel `parse_bencode` gives it
never does, so the inner parse accepts exactly the single words of that grammar
(`innerParse_accepts_words`). Python accepts fewer: `int` refuses numerals of more than 4300
digits and `parse_value` stops at the recursion limit, so acceptance is stated for the words
within both (`DeriveWithin`, `Numerals.limited`), which Python and the model accept alike.

The grammar is not bencode's. `int` accepts surrounding whitespace, a sign, underscores and
non-ASCII digits, so the parser accepts, for instance, `i 1e`, which is no bencode word
(`innerParse_not_bencode`). Every bencode word within the limits it does accept, with its
value.

## Main results

* `parse_complete`: one induction on the derivation, for the three functions at once.
* `innerParse_accepts_words`: what the inner parse accepts is a word with the value returned;
  every word within Python's limits, bencode's included, is accepted; every other text raises.
-/

namespace NgBencode

variable {u : UnicodeDb} {data : List Char}

theorem length_eq_of_drop_eq {pos : Nat} {s : List Char} (h : data.drop pos = s) (hs : s ≠ []) :
    data.length = pos + s.length := by
  have := congrArg List.length h
  rw [List.length_drop] at this
  have : s.length ≠ 0 := fun h0 => hs (List.length_eq_zero.mp h0)
  omega

/-- The first character of a value is not the `e` that closes a list or a dictionary. -/
theorem Derive.head_ne_e {s t : List Char} {v : PyVal}
    (h : Derive (Numerals.python u) .value s v t) : ∃ c r, s = c :: r ∧ c ≠ 'e' := by
  cases h with
  | str hn =>
    obtain ⟨⟨c, r, rfl, hc⟩, -⟩ := hn
    exact ⟨c, _, rfl, ne_of_isdigit hc (by decide) rfl⟩
  | int => exact ⟨'i', _, rfl, by decide⟩
  | list => exact ⟨'l', _, rfl, by decide⟩
  | dict => exact ⟨'d', _, rfl, by decide⟩

/-! ### The branches that do not recurse -/

theorem parseInteger_complete {n t : List Char} {k : Int} (hs : 'i' :: (n ++ 'e' :: t) <:+ data)
    (hn : (Numerals.python u).int n k) :
    parseInteger u data (data.length - ('i' :: (n ++ 'e' :: t)).length + 1) =
      .ok (.int k, data.length - t.length) := by
  obtain ⟨he, hk⟩ := hn
  have h := drop_succ_of_drop_eq_cons (drop_of_suffix hs)
  have hlen := hs.length_le
  simp only [List.length_cons, List.length_append] at hlen h ⊢
  simp only [parseInteger, find_of_drop_eq h he, slice_of_drop_eq h, hk, Outcome.ok_bind]
  congr 3
  omega

theorem parseString_complete {n w t : List Char} {k : Nat} (hs : n ++ ':' :: (w ++ t) <:+ data)
    (hn : (Numerals.python u).str n k) (hw : w.length = k) :
    parseString u data (data.length - (n ++ ':' :: (w ++ t)).length) =
      .ok (.str w, data.length - t.length) := by
  obtain ⟨-, hcolon, hk⟩ := hn
  have h := drop_of_suffix hs
  have hlen := hs.length_le
  have hrest := drop_succ_of_drop_eq_cons (drop_add_of_drop_eq h)
  simp only [List.length_cons, List.length_append] at hlen h hrest ⊢
  simp only [parseString, find_of_drop_eq h hcolon, slice_of_drop_eq h, hk, Outcome.ok_bind,
    Int.toNat_ofNat, ← hw, slice_of_drop_eq hrest]
  rw [if_neg (by omega)]
  congr 3
  omega

/-! ### Completeness -/

/-- What the parser does, at any fuel, from the start of a suffix `s` of the text that a
derivation covers up to `t`: it returns the derived value and the position of `t`, unless the
fuel runs out. The loops do so over any entries or items `acc` read before. -/
def Completes (u : UnicodeDb) (data : List Char) (fuel : Nat) :
    Nonterminal → List Char → PyVal → List Char → Prop
  | .value, s, v, t => (parseValue u fuel data (data.length - s.length)).Approx
      (.ok (v, data.length - t.length))
  | .items, s, .list vs, t => ∀ acc, (parseList u fuel data (data.length - s.length) acc).Approx
      (.ok (.list (acc ++ vs), data.length - t.length))
  | .pairs, s, .dict es, t => ∀ acc, (parseDict u fuel data (data.length - s.length) acc).Approx
      (.ok (.dict (Dict.update acc es), data.length - t.length))
  | _, _, _, _ => True

/-- **Completeness.** On a suffix of the text that starts with a word of the grammar, each
function returns the word's value and the position after it, at every fuel that does not run
out. -/
theorem parse_complete {nt : Nonterminal} {s t : List Char} {v : PyVal}
    (h : Derive (Numerals.python u) nt s v t) (hs : s <:+ data) (fuel : Nat) :
    Completes u data fuel nt s v t := by
  induction h generalizing fuel with
  | @str n w t k hn hw =>
    cases fuel with
    | zero => exact .inl rfl
    | succ fuel =>
      have hd := drop_of_suffix hs
      obtain ⟨c, r, rfl, hc⟩ := hn.1
      have h₁ : c ≠ 'd' := ne_of_isdigit hc (by decide) rfl
      have h₂ : c ≠ 'l' := ne_of_isdigit hc (by decide) rfl
      have h₃ : c ≠ 'i' := ne_of_isdigit hc (by decide) rfl
      refine .inr ?_
      rw [parseValue, getElem?_of_drop_eq_cons hd]
      simp only [h₁, h₂, h₃, hc, if_false, if_true]
      exact parseString_complete hs hn hw
  | @int n t k hn =>
    cases fuel with
    | zero => exact .inl rfl
    | succ fuel =>
      refine .inr ?_
      rw [parseValue, getElem?_of_drop_eq_cons (drop_of_suffix hs)]
      simp only [show ('i' : Char) ≠ 'd' by decide, show ('i' : Char) ≠ 'l' by decide, if_false,
        if_true]
      exact parseInteger_complete hs hn
  | @list s t vs _ ih =>
    cases fuel with
    | zero => exact .inl rfl
    | succ fuel =>
      have hd := drop_of_suffix hs
      have hlen := hs.length_le
      have hl := ih ((List.suffix_cons _ _).trans hs) fuel []
      rw [List.nil_append] at hl
      simp only [Completes]
      rw [parseValue, getElem?_of_drop_eq_cons hd]
      simp only [show ('l' : Char) ≠ 'd' by decide, if_false, if_true]
      simp only [List.length_cons] at hlen ⊢
      rwa [show data.length - (s.length + 1) + 1 = data.length - s.length by omega]
  | @dict s t es _ ih =>
    cases fuel with
    | zero => exact .inl rfl
    | succ fuel =>
      have hd := drop_of_suffix hs
      have hlen := hs.length_le
      have hl := ih ((List.suffix_cons _ _).trans hs) fuel []
      simp only [Completes]
      rw [parseValue, getElem?_of_drop_eq_cons hd]
      simp only [if_true]
      simp only [List.length_cons] at hlen ⊢
      rwa [show data.length - (s.length + 1) + 1 = data.length - s.length by omega]
  | @itemsEnd t =>
    intro acc
    cases fuel with
    | zero => exact .inl rfl
    | succ fuel =>
      have hd := drop_of_suffix hs
      have hlen := hs.length_le
      refine .inr ?_
      rw [parseList, getElem?_of_drop_eq_cons hd]
      simp only [if_true, List.append_nil]
      simp only [List.length_cons] at hlen ⊢
      congr 2
      omega
  | @itemsCons s s' t v vs h₁ _ ih₁ ih₂ =>
    intro acc
    cases fuel with
    | zero => exact .inl rfl
    | succ fuel =>
      have hd := drop_of_suffix hs
      have hs' := h₁.suffix.1.trans hs
      obtain ⟨c, r, rfl, hc⟩ := h₁.head_ne_e
      have hv := ih₁ hs fuel
      have hl := ih₂ hs' fuel (acc ++ [v])
      simp only [List.append_assoc, List.singleton_append] at hl
      rw [parseList, getElem?_of_drop_eq_cons hd]
      simp only [if_neg hc]
      exact hv.bind hl
  | @pairsEnd t =>
    intro acc
    cases fuel with
    | zero => exact .inl rfl
    | succ fuel =>
      have hd := drop_of_suffix hs
      have hlen := hs.length_le
      refine .inr ?_
      rw [parseDict, getElem?_of_drop_eq_cons hd]
      simp only [if_true, Dict.update_nil]
      simp only [List.length_cons] at hlen ⊢
      congr 2
      omega
  | @pairsCons s s' s'' t k v es h₁ h₂ _ ih₁ ih₂ ih₃ =>
    intro acc
    cases fuel with
    | zero => exact .inl rfl
    | succ fuel =>
      have hd := drop_of_suffix hs
      have hs' := h₁.suffix.1.trans hs
      have hs'' := h₂.suffix.1.trans hs'
      obtain ⟨c, r, rfl, hc⟩ := h₁.head_ne_e
      have hk := ih₁ hs fuel
      have hv := ih₂ hs' fuel
      have hrest := ih₃ hs'' fuel (Dict.setItem acc k v)
      rw [parseDict, getElem?_of_drop_eq_cons hd]
      simp only [if_neg hc]
      exact hk.bind (hv.bind hrest)

/-! ### The inner parse -/

/-- `parse_value` from the start of a single word returns its value at the end of the text. -/
theorem parseValue_of_derive {s : List Char} {v : PyVal}
    (h : Derive (Numerals.python u) .value s v []) :
    parseValue u (fuelFor s) s 0 = .ok (v, s.length) := by
  have hc : Completes u s (fuelFor s) .value s v [] := parse_complete h List.suffix_rfl _
  simp only [Completes, Nat.sub_self, List.length_nil, Nat.sub_zero] at hc
  exact hc.eq ((parse_fuel_enough _).1 0 (by unfold fuelFor; omega))

/-- A single word is accepted, with its value. -/
theorem innerParse_of_derive {s : List Char} {v : PyVal}
    (h : Derive (Numerals.python u) .value s v []) : innerParse u s = .ok v := by
  simp [innerParse, parseValue_of_derive h]

/-- What the inner parse accepts is a single word, with the value returned. -/
theorem derive_of_innerParse {s : List Char} {v : PyVal} (h : innerParse u s = .ok v) :
    Derive (Numerals.python u) .value s v [] := by
  obtain ⟨⟨v', pos⟩, hp, h⟩ := Outcome.bind_eq_ok.mp h
  dsimp only at h
  split_ifs at h with hpos
  cases h
  have hd := (parse_sound (fuelFor s)).1 0 v pos hp
  rwa [List.drop_zero, not_not.mp hpos, List.drop_length] at hd

/-- **What the inner parse accepts.** What it accepts is a single word of the grammar with the
numerals `int` reads, with the value it returns. Every such word whose numerals `int` reads
within its digit limit, and whose lists and dictionaries nest at most `maxNesting` deep, is
accepted with its value, and so is every bencode word within those limits. On every text that
is no word it raises: it never runs out of fuel. -/
theorem innerParse_accepts_words (u : UnicodeDb) (s : List Char) :
    (∀ v, innerParse u s = .ok v → Derive (Numerals.python u) .value s v []) ∧
      (∀ v, DeriveWithin (Numerals.python u).limited maxNesting .value s v [] →
        innerParse u s = .ok v) ∧
      (∀ v, DeriveWithin Numerals.bencode.limited maxNesting .value s v [] →
        innerParse u s = .ok v) ∧
      ((∀ v, ¬ Derive (Numerals.python u) .value s v []) → ∃ msg, innerParse u s = .raise msg) := by
  refine ⟨fun v => derive_of_innerParse, fun v h => innerParse_of_derive h.toDerive_limited,
    fun v h => innerParse_of_derive (h.toDerive_limited.bencode_to_python u), fun hs => ?_⟩
  cases hp : innerParse u s with
  | ok v => exact absurd (derive_of_innerParse hp) (hs v)
  | raise msg => exact ⟨msg, rfl⟩
  | outOfFuel => exact absurd hp (innerParse_ne_outOfFuel u s)

/-- **The parser accepts what is no bencode word.** `int` skips the space in `i 1e`, on every
Unicode database, and no derivation of bencode's own grammar reads that text. -/
theorem innerParse_not_bencode :
    (∀ u : UnicodeDb, innerParse u "i 1e".toList = .ok (.int 1)) ∧
      ∀ v, ¬ Derive Numerals.bencode .value "i 1e".toList v [] := by
  refine ⟨fun u => rfl, fun v h => ?_⟩
  generalize hs : "i 1e".toList = s at h
  cases h with
  | str hn =>
    obtain ⟨hne, hd, -⟩ := hn
    obtain ⟨c, r, rfl⟩ := List.exists_cons_of_ne_nil hne
    have hc : c = 'i' := (List.cons.inj hs).1.symm
    exact absurd (hd c (List.mem_cons_self _ _)) (by rw [hc]; decide)
  | int hn =>
    obtain ⟨ds, hne, hd, hn⟩ := hn
    have hn' : _ ++ ['e'] = [' ', '1'] ++ ['e'] := (List.cons.inj hs).2.symm
    replace hn' := List.append_inj_left' hn' rfl
    rcases hn with ⟨rfl, -⟩ | ⟨rfl, -⟩
    · obtain ⟨c, r, rfl⟩ := List.exists_cons_of_ne_nil hne
      have hc : c = ' ' := (List.cons.inj hn').1
      exact absurd (hd c (List.mem_cons_self _ _)) (by rw [hc]; decide)
    · exact absurd (List.cons.inj hn').1 (by decide)
  | list => exact absurd (List.cons.inj hs).1 (by decide)
  | dict => exact absurd (List.cons.inj hs).1 (by decide)

end NgBencode
