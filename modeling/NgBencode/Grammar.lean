import NgBencode.Int

/-!
# The bencode grammar

The grammar that `parse_bencode` is meant to check,

    V ::= S | 'i' N 'e' | 'l' V* 'e' | 'd' (S V)* 'e'        S ::= N ':' w,

with `w` exactly as many characters as the numeral `N` says. `Derive N nt s v t` reads a word of
the nonterminal `nt` (a value, the items of a list with their closing `e`, or the pairs of a
dictionary with theirs) off the front of `s`, with value `v` and `t` left over: a single word of
the grammar is `Derive N .value s v []`. A dictionary's value sets its pairs in order, so a
later key overrides an earlier one (`Dict.get?_update`).

What counts as a numeral is a parameter. `Numerals.bencode` is bencode's own: ASCII digits, and
an optional `-` before an integer's. `Numerals.python` is what the parser really reads: any text
`int` accepts, with the greedy cut the parser makes (no `e` in an integer's numeral, no `:` in a
length's) and, for a length, a first character for which `str.isdigit` holds. Every bencode
numeral is a Python one (`Derive.bencode_to_python`), and not conversely.

The model of the parser reads words of any size; Python does not. `int()` refuses a numeral of
more than 4300 digits, and `parse_value`, which calls itself once for each level of nesting,
raises `RecursionError` past the interpreter's recursion limit. `Numerals.limited` keeps the
numerals within the first, and `DeriveWithin N d` the words whose lists and dictionaries nest
at most `d` deep; what the parser is proved to accept, it is proved to accept within
`maxNesting` and those numerals.
-/

namespace NgBencode

/-- What a grammar takes for a numeral: a string's length prefix with its value, and the digits
of an integer with theirs. -/
structure Numerals where
  str : List Char → Nat → Prop
  int : List Char → Int → Prop

/-- Bencode's numerals: nonempty runs of ASCII digits, and for an integer an optional `-`
before them. -/
def Numerals.bencode : Numerals where
  str n k := n ≠ [] ∧ (∀ c ∈ n, c.isDigit = true) ∧ digitsValue n = k
  int n k := ∃ ds, ds ≠ [] ∧ (∀ c ∈ ds, c.isDigit = true) ∧
    (n = ds ∧ k = digitsValue ds ∨ n = '-' :: ds ∧ k = -(digitsValue ds : Int))

/-- The numerals `parse_value` reads with `int`: a length starts with a character for which
`str.isdigit` holds and runs to the first `:`, an integer's numeral runs to the first `e`. -/
def Numerals.python (u : UnicodeDb) : Numerals where
  str n k :=
    (∃ c r, n = c :: r ∧ isdigit u c = true) ∧ ':' ∉ n ∧ NgBencode.int u n = .ok (k : Int)
  int n k := 'e' ∉ n ∧ NgBencode.int u n = .ok k

/-- The numerals of `N` that `int()` reads within its digit limit: at most `intMaxStrDigits`
characters, so at most as many digits. -/
def Numerals.limited (N : Numerals) : Numerals where
  str n k := N.str n k ∧ n.length ≤ intMaxStrDigits
  int n k := N.int n k ∧ n.length ≤ intMaxStrDigits

/-- How deep lists and dictionaries may nest for Python to read or write them: `parse_value`
takes one frame a level, `json` one C recursion a level, and both raise `RecursionError` past
`sys.getrecursionlimit()`, 1000 by default, counted with their callers' frames. 900 levels
leave a hundred frames to the callers, more than the scripts take. -/
def maxNesting : Nat := 900

/-- The nonterminals: a value, the items of a list up to its closing `e`, and the key/value
pairs of a dictionary up to its closing `e`. -/
inductive Nonterminal where
  | value
  | items
  | pairs
  deriving DecidableEq

/-- `Derive N nt s v t`: `s` starts with a word of `nt` whose value is `v`, and `t` follows it.
The items of a list derive `.list` of them, the pairs of a dictionary `.dict` of them in
order. -/
inductive Derive (N : Numerals) : Nonterminal → List Char → PyVal → List Char → Prop where
  /-- `S ::= N ':' w`, with `w` as long as `N` says. -/
  | str {n w t : List Char} {k : Nat} : N.str n k → w.length = k →
      Derive N .value (n ++ ':' :: (w ++ t)) (.str w) t
  /-- `V ::= 'i' N 'e'` -/
  | int {n t : List Char} {k : Int} : N.int n k →
      Derive N .value ('i' :: (n ++ 'e' :: t)) (.int k) t
  /-- `V ::= 'l' V* 'e'` -/
  | list {s t : List Char} {vs : List PyVal} : Derive N .items s (.list vs) t →
      Derive N .value ('l' :: s) (.list vs) t
  /-- `V ::= 'd' (S V)* 'e'`, the pairs set in order. -/
  | dict {s t : List Char} {es : List (List Char × PyVal)} : Derive N .pairs s (.dict es) t →
      Derive N .value ('d' :: s) (.dict (Dict.update [] es)) t
  /-- No more items: the closing `e`. -/
  | itemsEnd {t : List Char} : Derive N .items ('e' :: t) (.list []) t
  /-- An item, then the rest of the list. -/
  | itemsCons {s s' t : List Char} {v : PyVal} {vs : List PyVal} : Derive N .value s v s' →
      Derive N .items s' (.list vs) t → Derive N .items s (.list (v :: vs)) t
  /-- No more pairs: the closing `e`. -/
  | pairsEnd {t : List Char} : Derive N .pairs ('e' :: t) (.dict []) t
  /-- A string key and a value, then the rest of the dictionary. -/
  | pairsCons {s s' s'' t k : List Char} {v : PyVal} {es : List (List Char × PyVal)} :
      Derive N .value s (.str k) s' → Derive N .value s' v s'' →
      Derive N .pairs s'' (.dict es) t →
      Derive N .pairs s (.dict ((k, v) :: es)) t

/-- `DeriveWithin N d nt s v t`: a derivation `Derive N nt s v t` whose lists and dictionaries
nest at most `d` deep. A list or a dictionary at `d + 1` has its items or pairs at `d`, so a
value at `d` opens at most `d` levels, and `parse_value` at most `d + 1` frames. -/
inductive DeriveWithin (N : Numerals) :
    Nat → Nonterminal → List Char → PyVal → List Char → Prop where
  | str {d : Nat} {n w t : List Char} {k : Nat} : N.str n k → w.length = k →
      DeriveWithin N d .value (n ++ ':' :: (w ++ t)) (.str w) t
  | int {d : Nat} {n t : List Char} {k : Int} : N.int n k →
      DeriveWithin N d .value ('i' :: (n ++ 'e' :: t)) (.int k) t
  | list {d : Nat} {s t : List Char} {vs : List PyVal} :
      DeriveWithin N d .items s (.list vs) t → DeriveWithin N (d + 1) .value ('l' :: s) (.list vs) t
  | dict {d : Nat} {s t : List Char} {es : List (List Char × PyVal)} :
      DeriveWithin N d .pairs s (.dict es) t →
      DeriveWithin N (d + 1) .value ('d' :: s) (.dict (Dict.update [] es)) t
  | itemsEnd {d : Nat} {t : List Char} : DeriveWithin N d .items ('e' :: t) (.list []) t
  | itemsCons {d : Nat} {s s' t : List Char} {v : PyVal} {vs : List PyVal} :
      DeriveWithin N d .value s v s' → DeriveWithin N d .items s' (.list vs) t →
      DeriveWithin N d .items s (.list (v :: vs)) t
  | pairsEnd {d : Nat} {t : List Char} : DeriveWithin N d .pairs ('e' :: t) (.dict []) t
  | pairsCons {d : Nat} {s s' s'' t k : List Char} {v : PyVal}
      {es : List (List Char × PyVal)} :
      DeriveWithin N d .value s (.str k) s' → DeriveWithin N d .value s' v s'' →
      DeriveWithin N d .pairs s'' (.dict es) t →
      DeriveWithin N d .pairs s (.dict ((k, v) :: es)) t

/-- Forgetting the nesting bound gives a derivation. -/
theorem DeriveWithin.toDerive {N : Numerals} {d : Nat} {nt : Nonterminal} {s t : List Char}
    {v : PyVal} (h : DeriveWithin N d nt s v t) : Derive N nt s v t := by
  induction h with
  | str hn hw => exact .str hn hw
  | int hn => exact .int hn
  | list _ ih => exact .list ih
  | dict _ ih => exact .dict ih
  | itemsEnd => exact .itemsEnd
  | itemsCons _ _ ih₁ ih₂ => exact .itemsCons ih₁ ih₂
  | pairsEnd => exact .pairsEnd
  | pairsCons _ _ _ ih₁ ih₂ ih₃ => exact .pairsCons ih₁ ih₂ ih₃

namespace Derive

variable {N N' : Numerals} {nt : Nonterminal} {s t : List Char} {v : PyVal}

/-- Every word is a nonempty prefix: what follows it is a proper suffix. -/
theorem suffix (h : Derive N nt s v t) : t <:+ s ∧ t.length < s.length := by
  induction h with
  | @str n w t =>
    refine ⟨⟨n ++ ':' :: w, by simp⟩, ?_⟩
    simp only [List.length_append, List.length_cons]
    omega
  | @int n t =>
    refine ⟨⟨'i' :: (n ++ ['e']), by simp⟩, ?_⟩
    simp only [List.length_append, List.length_cons]
    omega
  | list _ ih | dict _ ih =>
    exact ⟨ih.1.trans (List.suffix_cons _ _), by simp only [List.length_cons]; omega⟩
  | itemsEnd | pairsEnd => exact ⟨List.suffix_cons _ _, by simp⟩
  | itemsCons _ _ ih₁ ih₂ => exact ⟨ih₂.1.trans ih₁.1, by omega⟩
  | pairsCons _ _ _ ih₁ ih₂ ih₃ => exact ⟨ih₃.1.trans (ih₂.1.trans ih₁.1), by omega⟩

/-- The items of a list and the pairs of a dictionary end with the closing `e`. -/
theorem eq_append_e (h : Derive N nt s v t) : nt ≠ .value → ∃ w, s = w ++ 'e' :: t := by
  induction h with
  | str | int | list | dict => exact fun h => absurd rfl h
  | itemsEnd | pairsEnd => exact fun _ => ⟨[], rfl⟩
  | itemsCons h₁ _ _ ih =>
    obtain ⟨w, rfl⟩ := ih nofun
    obtain ⟨p, rfl⟩ := h₁.suffix.1
    exact fun _ => ⟨p ++ w, by rw [List.append_assoc]⟩
  | pairsCons h₁ h₂ _ _ _ ih =>
    obtain ⟨w, rfl⟩ := ih nofun
    obtain ⟨p, rfl⟩ := h₂.suffix.1.trans h₁.suffix.1
    exact fun _ => ⟨p ++ w, by rw [List.append_assoc]⟩

/-- A grammar with more numerals derives more. -/
theorem mono (hs : ∀ n k, N.str n k → N'.str n k) (hi : ∀ n k, N.int n k → N'.int n k)
    (h : Derive N nt s v t) : Derive N' nt s v t := by
  induction h with
  | str hn hw => exact .str (hs _ _ hn) hw
  | int hn => exact .int (hi _ _ hn)
  | list _ ih => exact .list ih
  | dict _ ih => exact .dict ih
  | itemsEnd => exact .itemsEnd
  | itemsCons _ _ ih₁ ih₂ => exact .itemsCons ih₁ ih₂
  | pairsEnd => exact .pairsEnd
  | pairsCons _ _ _ ih₁ ih₂ ih₃ => exact .pairsCons ih₁ ih₂ ih₃

/-- The text of a string word holds the string. -/
theorem str_isInfix {w : List Char} (h : Derive N .value s (.str w) t) : w <:+: s := by
  cases h with
  | @str n _ _ _ => exact ⟨n ++ [':'], t, by simp⟩

/-- Every key of the pairs of a dictionary stands in their text. -/
theorem key_isInfix (h : Derive N nt s v t) :
    ∀ es, v = .dict es → nt = .pairs → ∀ k ∈ es.map Prod.fst, k <:+: s := by
  induction h with
  | str | int | list | dict | itemsEnd | itemsCons => intro _ _ hnt; cases hnt
  | pairsEnd => intro es hv _ k hk; cases hv; exact absurd hk (List.not_mem_nil k)
  | pairsCons hk hv _ _ _ ih =>
    intro es he _ k' hk'
    cases he
    rcases List.mem_cons.mp hk' with rfl | hk'
    · exact hk.str_isInfix
    · exact (ih _ rfl rfl k' hk').trans (hv.suffix.1.trans hk.suffix.1).isInfix

/-- **Every key of a dictionary word stands in its text**, however the dictionary sets its
pairs. -/
theorem dict_key_isInfix {d : Dict} {k : List Char} (h : Derive N .value s (.dict d) t)
    (hk : k ∈ d.map Prod.fst) : k <:+: s := by
  cases h with
  | dict hes =>
    rcases Dict.mem_keys_update hk with hk | hk
    · exact absurd hk (List.not_mem_nil k)
    · exact (hes.key_isInfix _ rfl rfl k hk).trans (List.suffix_cons _ _).isInfix

/-- **Every bencode word is a word of what `int` reads**, with the same value. -/
theorem bencode_to_python (u : UnicodeDb) (h : Derive Numerals.bencode nt s v t) :
    Derive (Numerals.python u) nt s v t := by
  have hs : ∀ n k, Numerals.bencode.str n k → (Numerals.python u).str n k := by
    rintro n k ⟨hne, hd, hv⟩
    obtain ⟨c, r, rfl⟩ := List.exists_cons_of_ne_nil hne
    have hc := hd c (List.mem_cons_self _ _)
    refine ⟨⟨c, r, rfl, by rw [isdigit_of_ascii (toNat_lt_of_isDigit hc), hc]⟩,
      fun hm => absurd (hd _ hm) (by decide), ?_⟩
    rw [(int_digits u hne hd).1, hv]
  have hi : ∀ n k, Numerals.bencode.int n k → (Numerals.python u).int n k := by
    rintro n k ⟨ds, hne, hd, hn⟩
    have he : 'e' ∉ ds := fun hm => absurd (hd _ hm) (by decide)
    rcases hn with ⟨rfl, rfl⟩ | ⟨rfl, rfl⟩
    · exact ⟨he, (int_digits u hne hd).1⟩
    · exact ⟨by simpa using he, (int_digits u hne hd).2⟩
  exact mono hs hi h

end Derive

/-- Forgetting the digit limit as well gives a derivation with every numeral. -/
theorem DeriveWithin.toDerive_limited {N : Numerals} {d : Nat} {nt : Nonterminal}
    {s t : List Char} {v : PyVal} (h : DeriveWithin N.limited d nt s v t) : Derive N nt s v t :=
  h.toDerive.mono (fun _ _ h => And.left h) (fun _ _ h => And.left h)

end NgBencode
